import RequestGen.Proofs.Request.LocalNames
import RequestGen.Proofs.Request.WrappedBody

/-! # The order of the parameters

No required parameter may follow an optional one. A request function lists the arguments of its
operation in their order, and the caller's options behind them. A mutator's wrapper is put in by the
text of the whole list, and still each parameter declares what it declared before
(`exists_wrapBodyType_eq`). So the order of the arguments is that of all parameters, unless the
options are required behind an optional argument (`Endpoint.parameters_inOrder_iff`): a switch of
the output makes them so for every function that hands them over to a mutator. -/

namespace RequestGen

namespace ParameterText

/-! ### What a parameter declares -/

/-- The name that a parameter starts with, and whether the mark of an optional one comes next. -/
def heading (parameter : List Char) : List Char × Bool :=
  (parameter.takeWhile Text.isNameChar,
    ['?', ':'].isPrefixOf (parameter.dropWhile Text.isNameChar))

/-- The parameter is written `name?: Type`. -/
def IsOptional (parameter : String) : Prop :=
  ∃ name type, parameter = name ++ "?:" ++ type ∧ name ≠ "" ∧
    ∀ c ∈ name.toList, Text.isNameChar c = true

/-- No required parameter follows an optional one. -/
def InOrder (parameters : List String) : Prop :=
  parameters.Pairwise fun p q => IsOptional p → IsOptional q

theorem isOptional_iff {p : String} :
    IsOptional p ↔ (heading p.toList).1 ≠ [] ∧ (heading p.toList).2 = true := by
  constructor
  · rintro ⟨name, type, rfl, hne, hname⟩
    have hmark : Text.isNameChar '?' = false := by decide
    have htext : (name ++ "?:" ++ type).toList = name.toList ++ '?' :: ':' :: type.toList := by simp
    simp only [heading, htext, List.takeWhile_append_of_pos hname,
      List.dropWhile_append_of_pos hname, List.takeWhile_cons, List.dropWhile_cons, hmark,
      Bool.false_eq_true, if_false, List.append_nil]
    exact ⟨by simpa using hne, by simp⟩
  · rintro ⟨hne, hmark⟩
    obtain ⟨type, htype⟩ := List.isPrefixOf_iff_prefix.mp hmark
    have htext := List.takeWhile_append_dropWhile (p := Text.isNameChar) (l := p.toList)
    refine ⟨String.ofList (heading p.toList).1, String.ofList type, ?_, ?_, ?_⟩
    · rw [← htype] at htext
      rw [← String.toList_inj]
      simpa [heading] using htext.symm
    · exact mt String.ofList_eq_empty_iff.mp hne
    · rw [String.toList_ofList]
      exact fun c hc => List.mem_takeWhile_imp hc

instance (p : String) : Decidable (IsOptional p) := decidable_of_iff _ isOptional_iff.symm

instance (ps : List String) : Decidable (InOrder ps) :=
  inferInstanceAs (Decidable (List.Pairwise _ ps))

theorem inOrder_congr {ps qs : List String}
    (h : ps.map (heading ·.toList) = qs.map (heading ·.toList)) : InOrder ps ↔ InOrder qs := by
  have hmap (ps : List String) : InOrder ps ↔ (ps.map (heading ·.toList)).Pairwise fun d d' =>
      d.1 ≠ [] ∧ d.2 = true → d'.1 ≠ [] ∧ d'.2 = true := by
    rw [List.pairwise_map]
    simp only [InOrder, isOptional_iff]
  rw [hmap, hmap, h]

theorem inOrder_concat_iff {ps : List String} {q : String} :
    InOrder (ps ++ [q]) ↔ InOrder ps ∧ ((∃ p ∈ ps, IsOptional p) → IsOptional q) := by
  simp [InOrder, List.pairwise_append]

/-! ### Texts inside a comma list -/

/-- The characters that no parameter has before its type: the colon, and brackets and quotes. -/
def typeMarks : List Char :=
  [':', '<', ')', ']', '\x7d', '>', '\'', '"', '\x60']

theorem isNameChar_of_mem_typeMarks {c : Char} (h : c ∈ typeMarks) :
    Text.isNameChar c = false := by
  have hall : typeMarks.all (!Text.isNameChar ·) = true := by decide
  simpa using List.all_eq_true.mp hall c h

theorem heading_append {s : List Char} (h : ∃ c ∈ s, c ∈ typeMarks) (t t' : List Char) :
    heading (s ++ t) = heading (s ++ t') := by
  induction s with
  | nil => simp at h
  | cons c s ih =>
    cases hc : Text.isNameChar c with
    | true =>
      have hmark : ∃ d ∈ s, d ∈ typeMarks := by
        obtain ⟨d, hd, hmark⟩ := h
        rcases List.mem_cons.mp hd with rfl | hd
        · exact absurd hc (by simp [isNameChar_of_mem_typeMarks hmark])
        · exact ⟨d, hd, hmark⟩
      simpa [heading, hc] using ih hmark
    | false =>
      cases s with
      | nil =>
        obtain ⟨d, hd, hmark⟩ := h
        obtain rfl := List.mem_singleton.mp hd
        have hne : ('?' == d) = false := by
          rw [beq_eq_false_iff_ne]
          rintro rfl
          exact absurd hmark (by decide)
        simp [heading, hc, List.isPrefixOf, hne]
      | cons d s => simp [heading, hc, List.isPrefixOf]

/-- A mark of a type comes behind each comma. The commas of a type are of this kind, since they
stand in brackets or quotes. -/
def CommasEnclosed (s : List Char) : Prop :=
  ∀ a b, s = a ++ ',' :: b → ∃ c ∈ b, c ∈ typeMarks

theorem commasEnclosed_of_notMem {s : List Char} (h : ',' ∉ s) : CommasEnclosed s := by
  rintro a b rfl
  simp at h

/-- In each parameter that the text reaches into, a mark of a type comes before its end. -/
structure Settled (front : List Char) : Prop where
  mark : ∃ c ∈ front, c ∈ typeMarks
  behind_comma : CommasEnclosed front

theorem settled_append_cons {s t : List Char} {mark : Char} (hmark : mark ∈ typeMarks)
    (ht : CommasEnclosed t) : Settled (s ++ mark :: t) := by
  have hcomma : mark ≠ ',' := by
    rintro rfl
    exact absurd hmark (by decide)
  refine ⟨⟨mark, by simp, hmark⟩, fun a b hab => ?_⟩
  rcases List.append_eq_append_iff.mp hab with ⟨a', -, htail⟩ | ⟨s', -, htail⟩
  · cases a' with
    | nil => exact absurd (List.cons_eq_cons.mp htail).1 hcomma
    | cons c a' => exact ht a' b (List.cons_eq_cons.mp htail).2
  · cases s' with
    | nil => exact absurd (List.cons_eq_cons.mp htail).1.symm hcomma
    | cons c s' =>
      obtain ⟨-, rfl⟩ := List.cons_eq_cons.mp htail
      exact ⟨mark, by simp, hmark⟩

theorem Settled.of_append_comma {a b : List Char} (h : Settled (a ++ ',' :: ' ' :: b)) :
    Settled b := by
  constructor
  · obtain ⟨c, hc, hmark⟩ := h.behind_comma _ _ rfl
    rcases List.mem_cons.mp hc with rfl | hc
    · exact absurd hmark (by decide)
    · exact ⟨c, hc, hmark⟩
  · rintro a' b' rfl
    exact h.behind_comma (a ++ ',' :: ' ' :: a') b' (by simp)

theorem toList_commaList_cons {p : String} {ps : List String} (h : ps ≠ []) :
    (Text.commaList (p :: ps)).toList = p.toList ++ ',' :: ' ' :: (Text.commaList ps).toList := by
  simpa [h] using Text.commaList_cons_append p ps []

/-- What comes behind `front` in the comma list stands inside one parameter, where a mark of a type
comes before it, and any other text may stand in its place. -/
def StandsInside (gone : List Char) (ps : List String) (front back : List Char) : Prop :=
  ∃ before after part kept, ps = before ++ String.ofList (part ++ (gone ++ kept)) :: after ∧
    (∃ c ∈ part, c ∈ typeMarks) ∧ ∀ new,
      (Text.commaList (before ++ String.ofList (part ++ (new ++ kept)) :: after)).toList =
        front ++ (new ++ back)

section StandsInside

variable {gone front back : List Char} {p : String} {ps : List String}

theorem standsInside_singleton (hp : p.toList = front ++ (gone ++ back))
    (hmark : ∃ c ∈ front, c ∈ typeMarks) : StandsInside gone [p] front back := by
  refine ⟨[], [], front, back, by simp [← hp], hmark, fun new => ?_⟩
  rw [List.nil_append, Text.commaList_singleton, String.toList_ofList]

theorem standsInside_head {kept : List Char} (hps : ps ≠ [])
    (hp : p.toList = front ++ (gone ++ kept)) (hmark : ∃ c ∈ front, c ∈ typeMarks) :
    StandsInside gone (p :: ps) front (kept ++ ',' :: ' ' :: (Text.commaList ps).toList) := by
  refine ⟨[], ps, front, kept, by simp [← hp], hmark, fun new => ?_⟩
  rw [List.nil_append, toList_commaList_cons hps]
  simp

theorem StandsInside.cons (h : StandsInside gone ps front back) (p : String) :
    StandsInside gone (p :: ps) (p.toList ++ ',' :: ' ' :: front) back := by
  obtain ⟨before, after, part, kept, rfl, hmark, hlist⟩ := h
  refine ⟨p :: before, after, part, kept, rfl, hmark, fun new => ?_⟩
  rw [List.cons_append, toList_commaList_cons (by simp), hlist]
  simp

theorem standsInside_of_settled (h : (Text.commaList ps).toList = front ++ (gone ++ back))
    (hfront : Settled front) (hgone : ',' ∉ gone) : StandsInside gone ps front back := by
  induction ps generalizing front with
  | nil =>
    obtain ⟨c, hc, -⟩ := hfront.mark
    have hnil : front = [] := (List.append_eq_nil_iff.mp h.symm).1
    exact absurd hc (by simp [hnil])
  | cons p ps ih =>
    by_cases hps : ps = []
    · subst hps
      rw [Text.commaList_singleton] at h
      exact standsInside_singleton h hfront.mark
    rw [toList_commaList_cons hps] at h
    have hfirst (kept : List Char) (hp : p.toList = front ++ (gone ++ kept))
        (hback : kept ++ ',' :: ' ' :: (Text.commaList ps).toList = back) :=
      hback ▸ standsInside_head hps hp hfront.mark
    rcases List.append_eq_append_iff.mp h with ⟨t, hend, htail⟩ | ⟨t, hp, htail⟩
    · -- `front` reaches the end of the first parameter, and does not end in the comma behind it
      match t with
      | [] =>
        cases gone with
        | nil => exact hfirst [] (by simpa using hend.symm) htail
        | cons c gone =>
          obtain ⟨rfl, -⟩ := List.cons_eq_cons.mp htail
          simp at hgone
      | [c] =>
        obtain ⟨rfl, -⟩ := List.cons_eq_cons.mp htail
        obtain ⟨c, hc, -⟩ := hfront.behind_comma _ _ hend
        simp at hc
      | c :: c' :: t =>
        simp only [List.cons_append, List.cons.injEq] at htail
        obtain ⟨rfl, rfl, htail⟩ := htail
        obtain rfl := hend
        exact (ih htail hfront.of_append_comma).cons p
    · rcases List.append_eq_append_iff.mp htail with ⟨kept, rfl, hback⟩ | ⟨u, rfl, hcomma⟩
      · exact hfirst kept hp hback.symm
      · cases u with
        | nil => exact hfirst [] (by simpa using hp) hcomma
        | cons c u =>
          obtain ⟨rfl, -⟩ := List.cons_eq_cons.mp hcomma
          simp at hgone

theorem StandsInside.exists_exchanged (h : StandsInside gone ps front back) (new : List Char) :
    ∃ qs, (Text.commaList qs).toList = front ++ (new ++ back) ∧
      qs.map (heading ·.toList) = ps.map (heading ·.toList) := by
  obtain ⟨before, after, part, kept, rfl, hmark, hlist⟩ := h
  refine ⟨_, hlist new, ?_⟩
  simp [heading_append hmark (new ++ kept) (gone ++ kept)]

end StandsInside

theorem commaListOfNonempty_cons {ps others : List String} (hps : Text.commaList ps = "" → ps = [])
    (hothers : "" ∉ others) :
    Text.commaListOfNonempty (Text.commaList ps :: others) = Text.commaList (ps ++ others) := by
  have hkept : others.filter (· ≠ "") = others :=
    List.filter_eq_self.mpr fun p hp => by simpa using ne_of_mem_of_not_mem hp hothers
  by_cases hnil : ps = []
  · subst hnil
    rw [List.nil_append, Text.commaListOfNonempty, List.filter_cons_of_neg (by decide), hkept]
  · rw [Text.commaListOfNonempty, List.filter_cons_of_pos (by simpa using mt hps hnil), hkept]
    cases others with
    | nil => rw [List.append_nil, Text.commaList_singleton]
    | cons p others =>
      rw [Text.commaList_cons_cons]
      exact (String.intercalate_append_of_ne_nil hnil (List.cons_ne_nil _ _)).symm

/-- The wrapper of a type leaves what the parameters of the list declare. -/
theorem exists_wrapBodyType_eq {body : Body} (hd : CommasEnclosed body.definition.toList)
    (ps : List String) (wrapper : String) :
    ∃ qs, wrapBodyType (Text.commaList ps) body wrapper = Text.commaList qs ∧
      qs.map (heading ·.toList) = ps.map (heading ·.toList) := by
  by_cases hnone : ∀ front, ¬ AnnotatedAfter body.definition.toList (Text.commaList ps).toList front
  · exact ⟨ps, by rw [wrapBodyType, wrapType_eq_self hnone, String.ofList_toList], rfl⟩
  push Not at hnone
  obtain ⟨front, hfront⟩ := hnone
  obtain ⟨front, hfirst⟩ := exists_first_annotation hfront
  obtain ⟨blank, rest, hblank, hs, hwrap⟩ := wrapType_eq_of_first wrapper.toList hfirst
  obtain ⟨name, -, rfl, -⟩ := hfirst.1
  have hcomma : ',' ∉ blank := fun h => absurd (hblank _ h) (by decide)
  have hname : Settled (name ++ [':']) :=
    settled_append_cons (by decide) (commasEnclosed_of_notMem (by simp))
  -- what stands before the type is put in first, and then what stands behind it
  obtain ⟨opened, hopened, hheadings⟩ :=
    (standsInside_of_settled hs hname hcomma).exists_exchanged (' ' :: wrapper.toList ++ ['<'])
  have htype : Settled ((name ++ ':' :: ' ' :: wrapper.toList) ++ '<' :: body.definition.toList) :=
    settled_append_cons (by decide) hd
  have hbehind : StandsInside [] opened _ rest :=
    standsInside_of_settled (by rw [hopened]; simp) htype (by simp)
  obtain ⟨closed, hclosed, hheadings'⟩ := hbehind.exists_exchanged ['>']
  refine ⟨closed, ?_, hheadings'.trans hheadings⟩
  rw [← String.toList_inj, wrapBodyType, String.toList_ofList, hwrap, hclosed, wrappedAfter]
  simp

end ParameterText

open ParameterText

theorem wrapBodyType_ne_empty {list : String} (hne : list ≠ "") (body : Body) (wrapper : String) :
    wrapBodyType list body wrapper ≠ "" := by
  rw [wrapBodyType, Ne, String.ofList_eq_empty_iff]
  cases hs : list.toList with
  | nil => exact absurd (String.toList_eq_nil_iff.mp hs) hne
  | cons c s =>
    rw [wrapType]
    split <;> simp

/-- The arguments of an operation as a parameter list writes them. One without a text is left
out. -/
def Operation.argumentTexts (op : Operation) : List String :=
  (op.arguments.map (·.implementation)).filter (· ≠ "")

/-- The texts are the parameters of a function of the operation: they make up its parameter list,
and declare the operation's arguments and what other parameters the function has. -/
structure RequestFunction.IsParameters (f : RequestFunction) (op : Operation) (ps : List String) :
    Prop where
  list : Text.commaListOfNonempty (f.params.map Param.render) = Text.commaList ps
  headings : ps.map (heading ·.toList) =
    (op.argumentTexts ++ f.params.tail.map Param.render).map (heading ·.toList)

theorem toList_render_options (isOptional : Bool) (type : String) :
    (Param.options isOptional type).render.toList =
      "options".toList ++ ((if isOptional then ['?'] else []) ++ ':' :: ' ' :: type.toList) := by
  cases isOptional with
  | true => exact String.toList_append (s := "options?: ")
  | false => exact String.toList_append (s := "options: ")

theorem isOptional_options {isOptional : Bool} {type : String} :
    IsOptional (Param.options isOptional type).render ↔ isOptional = true := by
  have hall : "options".toList.all Text.isNameChar = true := by decide
  have hname := List.all_eq_true.mp hall
  cases isOptional with
  | true =>
    refine iff_of_true ⟨"options", " " ++ type, ?_, by decide, hname⟩ rfl
    rw [← String.toList_inj, toList_render_options]
    simp
  | false =>
    have hcolon : Text.isNameChar ':' = false := by decide
    rw [isOptional_iff, toList_render_options, heading, List.dropWhile_append_of_pos hname]
    simp [hcolon]

theorem inOrder_append_options {ps : List String} {options : List Param} {required : Prop}
    (h : options = [] ∧ ¬ required ∨ ∃ isOptional type, options = [.options isOptional type] ∧
      (isOptional = false ↔ required)) :
    InOrder (ps ++ options.map Param.render) ↔
      InOrder ps ∧ ¬ (required ∧ ∃ p ∈ ps, IsOptional p) := by
  rcases h with ⟨rfl, hrequired⟩ | ⟨isOptional, type, rfl, hrequired⟩
  · simp [hrequired]
  · rw [List.map_singleton, inOrder_concat_iff, isOptional_options, ← hrequired]
    cases isOptional <;> simp

namespace Endpoint

variable {ctx : Context} {e : Endpoint} {exported generic : Bool} {via : Transport}

/-- The function hands options over to a mutator, and the output requires its callers to pass
them. -/
def RequiresOptions (e : Endpoint) (output : OutputConfig) (via : Transport) : Prop :=
  output.optionsParamRequired = true ∧ via ≠ .axios ∧ e.operation.mutator.isSome = true ∧
    e.takesOptions via = true

theorem mutatorOptionsParam_cases {mutator : Mutator} (hm : e.operation.mutator = some mutator)
    (hv : via ≠ .axios) (output : OutputConfig) :
    (e.operation.mutatorOptionsParam output).toList = [] ∧ ¬ e.RequiresOptions output via ∨
      ∃ isOptional type,
        (e.operation.mutatorOptionsParam output).toList = [.options isOptional type] ∧
          (isOptional = false ↔ e.RequiresOptions output via) := by
  have htakes : e.takesOptions via =
      (e.operation.overrides.requestOptions.isTaken && mutator.hasSecondArg) := by
    cases via with
    | axios => exact absurd rfl hv
    | mutator | fetch => simp [takesOptions, hm]
  unfold RequiresOptions
  rw [htakes]
  simp only [Operation.mutatorOptionsParam, hm]
  split
  · next ht => exact .inr ⟨_, _, rfl, by simp [hv, ht]⟩
  · next ht => exact .inl ⟨rfl, by simp [ht]⟩

theorem exists_params_eq (hs : e.operation.overrides.singleRequest = false)
    (hm : via = .mutator → e.operation.mutator.isSome = true) :
    ∃ f list options, e.requestOver ctx exported generic via = .ok f ∧
      f.params = .arguments list :: options ∧
      (list = e.operation.argumentList ∨
        via = .mutator ∧ ∃ mutator, list = e.mutatorArgumentList mutator) ∧
      (options = [] ∧ ¬ e.RequiresOptions ctx.output via ∨
        ∃ isOptional type, options = [.options isOptional type] ∧
          (isOptional = false ↔ e.RequiresOptions ctx.output via)) := by
  cases via with
  | axios =>
    refine ⟨_, _, _, (Sender.axiosFlat hs).requestOver_eq, rfl, .inl rfl, ?_⟩
    have hoptional : ¬ e.RequiresOptions ctx.output .axios := fun h => h.2.1 rfl
    simp only [axiosFrame, Operation.axiosOptionsParam]
    split
    · exact .inr ⟨true, _, rfl, by simp [hoptional]⟩
    · exact .inl ⟨rfl, hoptional⟩
  | mutator =>
    obtain ⟨mutator, hm⟩ := Option.isSome_iff_exists.mp (hm rfl)
    exact ⟨_, _, _, (Sender.mutatorFlat hm hs).requestOver_eq, rfl, .inr ⟨rfl, mutator, rfl⟩,
      mutatorOptionsParam_cases hm (by decide) _⟩
  | fetch =>
    cases hm : e.operation.mutator with
    | some mutator =>
      refine ⟨_, _, _, Sender.fetch.requestOver_eq, ?_, .inl rfl,
        mutatorOptionsParam_cases hm (by decide) _⟩
      rw [fetchSender, hm]
      rfl
    | none =>
      have hoptional : ¬ e.RequiresOptions ctx.output .fetch := by
        rintro ⟨-, -, hsome, -⟩
        simp [hm] at hsome
      refine ⟨_, e.operation.argumentList,
        if e.operation.overrides.requestOptions.isTaken then [.options true "RequestInit"] else [],
        Sender.fetch.requestOver_eq, ?_, .inl rfl, ?_⟩
      · rw [fetchSender, hm]
        rfl
      · split
        · exact .inr ⟨true, _, rfl, by simp [hoptional]⟩
        · exact .inl ⟨rfl, hoptional⟩

/-- The list of the arguments, with the body's type wrapped or not, is made of parameters that
declare the operation's arguments. -/
theorem exists_list_eq {list : String}
    (hd : via = .mutator → CommasEnclosed e.operation.body.definition.toList)
    (h : list = e.operation.argumentList ∨
      via = .mutator ∧ ∃ mutator, list = e.mutatorArgumentList mutator) :
    ∃ ps, list = Text.commaList ps ∧
      ps.map (heading ·.toList) = e.operation.argumentTexts.map (heading ·.toList) ∧
      (list = "" → ps = []) := by
  have hplain : e.operation.argumentList = Text.commaList e.operation.argumentTexts := rfl
  have hempty : e.operation.argumentList = "" → e.operation.argumentTexts = [] := by
    intro hlist
    cases htexts : e.operation.argumentTexts with
    | nil => rfl
    | cons p ps =>
      have hp : p ∈ e.operation.argumentTexts := by simp [htexts]
      rw [hplain, htexts] at hlist
      exact absurd hlist
        (Text.commaList_cons_ne_empty (by simpa using (List.mem_filter.mp hp).2) ps)
  have hsame : ∃ ps, e.operation.argumentList = Text.commaList ps ∧
      ps.map (heading ·.toList) = e.operation.argumentTexts.map (heading ·.toList) ∧
      (e.operation.argumentList = "" → ps = []) := ⟨_, hplain, rfl, hempty⟩
  rcases h with rfl | ⟨hv, mutator, rfl⟩
  · exact hsame
  simp only [mutatorArgumentList]
  cases mutator.bodyTypeName with
  | none => exact hsame
  | some wrapper =>
    dsimp only
    split
    · obtain ⟨ps, hps, hheadings⟩ :=
        exists_wrapBodyType_eq (hd hv) e.operation.argumentTexts wrapper
      refine ⟨ps, by rw [hplain, hps], hheadings, fun hwrapped => ?_⟩
      have hnone : e.operation.argumentTexts = [] := by
        by_contra hne
        exact wrapBodyType_ne_empty (mt hempty hne) _ wrapper hwrapped
      simpa [hnone] using hheadings
    · exact hsame

/-- A function with a list of arguments has all its parameters in order exactly if the operation's
arguments are in order, and no optional one of them stands before options that the output
requires. -/
theorem parameters_inOrder_iff (hs : e.operation.overrides.singleRequest = false)
    (hm : via = .mutator → e.operation.mutator.isSome = true)
    (hd : via = .mutator → CommasEnclosed e.operation.body.definition.toList) :
    ∃ f, e.requestOver ctx exported generic via = .ok f ∧
      (∃ ps, f.IsParameters e.operation ps) ∧
      ∀ ps, f.IsParameters e.operation ps →
        (InOrder ps ↔ InOrder e.operation.argumentTexts ∧
          ¬ (e.RequiresOptions ctx.output via ∧
            ∃ p ∈ e.operation.argumentTexts, IsOptional p)) := by
  obtain ⟨f, list, options, hf, hparams, hlist, hoptions⟩ := exists_params_eq hs hm
  obtain ⟨ps, rfl, hheadings, hempty⟩ := exists_list_eq hd hlist
  refine ⟨f, hf, ⟨ps ++ options.map Param.render, ?_, ?_⟩, fun qs hqs => ?_⟩
  · rw [hparams, List.map_cons, Param.render]
    refine commaListOfNonempty_cons hempty ?_
    rcases hoptions with ⟨rfl, -⟩ | ⟨isOptional, type, rfl, -⟩
    · simp
    · simp [← String.toList_inj, toList_render_options]
  · rw [hparams, List.tail_cons, List.map_append, List.map_append, hheadings]
  · rw [inOrder_congr hqs.headings, hparams, List.tail_cons]
    exact inOrder_append_options hoptions

end Endpoint

/-- An operation with an optional argument that is handed over to a mutator with options. -/
def savePet : Endpoint where
  operation := {
    verb := .put
    operationName := "savePet"
    body := { definition := "Pet", implementation := "pet" }
    queryParams := some { schema := { name := "SavePetParams" } }
    arguments := [
      { name := "id", definition := "id: string", implementation := "id: string" },
      { name := "pet", definition := "pet: Pet", implementation := "pet: Pet", kind := .body },
      { name := "params", definition := "params?: SavePetParams",
        implementation := "params?: SavePetParams", required := false, kind := .queryParam }]
    mutator := some
      { name := "customInstance", hasSecondArg := true, bodyTypeName := some "BodyType" } }
  route := "/pets/${id}"
  pathRoute := "/pets/{id}"

/-- Optional options come behind the optional argument of `savePet` in order. -/
theorem savePet_inOrder :
    ∃ f, savePet.requestOver {} false true .mutator = .ok f ∧
      ∀ ps, f.IsParameters savePet.operation ps → InOrder ps := by
  obtain ⟨f, hf, -, hiff⟩ := @Endpoint.parameters_inOrder_iff {} savePet false true .mutator rfl
    (fun _ => rfl) (fun _ => commasEnclosed_of_notMem (by decide))
  refine ⟨f, hf, fun ps hps => (hiff ps hps).mpr ⟨by decide, ?_⟩⟩
  rintro ⟨⟨hrequired, -⟩, -⟩
  exact nomatch hrequired

/-- Options that the output requires come behind the optional argument of `savePet` out of
order. -/
theorem savePet_out_of_order :
    ∃ f ps, savePet.requestOver { output := { optionsParamRequired := true } } false true .mutator =
        .ok f ∧
      f.IsParameters savePet.operation ps ∧ InOrder savePet.operation.argumentTexts ∧
        ¬ InOrder ps :=
  ⟨_, ["id: string", "pet: BodyType<Pet>", "params?: SavePetParams",
      "options: SecondParameter<typeof customInstance>"],
    (Endpoint.Sender.mutatorFlat rfl rfl).requestOver_eq, ⟨by decide, by decide⟩, by decide,
    by decide⟩

end RequestGen
