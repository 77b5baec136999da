import Mathlib.Data.List.Infix
import Mathlib.Order.WellFounded
import RequestGen.Proofs.Request.Senders

/-! # The wrapped type of the body

A mutator may name a wrapper for the type of the body. The wrapper is put in by the text of the
whole parameter list, around the first annotation of that type (`exists_wrapType_eq`). It is the
body that gets it exactly if no annotation of the same type stands before that of the body
(`Endpoint.wraps_body_type_iff`): the list of another first annotation is never that of the body by
chance (`wrapped_ne_of_shorter`). -/

namespace RequestGen

/-! ### Annotations -/

/-- The text goes on with an annotation of the type after `front`, which ends with the colon. -/
def AnnotatedAfter (definition s front : List Char) : Prop :=
  ∃ name back, front = name ++ [':'] ∧ s = front ++ back ∧
    (typeAfter? definition back).isSome = true

/-- The first annotation of the type comes after `front`. -/
def FirstAnnotatedAfter (definition s front : List Char) : Prop :=
  AnnotatedAfter definition s front ∧
    ∀ other, AnnotatedAfter definition s other → front.length ≤ other.length

/-- A text in which the type that comes after `front` is in the wrapper. -/
def wrappedAfter (definition wrapper front rest : List Char) : List Char :=
  front ++ ' ' :: (wrapper ++ '<' :: (definition ++ '>' :: rest))

section Annotations

variable {definition wrapper s front back rest : List Char}

theorem exists_of_typeAfter?_eq_some (h : typeAfter? definition s = some rest) :
    ∃ blank, (∀ c ∈ blank, Text.isBlank c = true) ∧ s = blank ++ (definition ++ rest) := by
  have hnil : ∀ c ∈ ([] : List Char), Text.isBlank c = true := by simp
  have hexact {s : List Char} (h : (if definition.isPrefixOf s then
      if (s.drop definition.length).head?.any Text.isNameChar then none
      else some (s.drop definition.length) else none) = some rest) : s = definition ++ rest := by
    split at h
    · next hp =>
      split at h
      · exact nomatch h
      · obtain rfl := Option.some.inj h
        exact List.prefix_iff_eq_append.mp (List.isPrefixOf_iff_prefix.mp hp) |>.symm
    · exact nomatch h
  cases s with
  | nil => exact ⟨[], hnil, hexact h⟩
  | cons c s =>
    simp only [typeAfter?] at h
    split at h
    · next hblank =>
      rcases Option.or_eq_some_iff.mp h with h | ⟨-, h⟩
      · exact ⟨[c], by simpa using hblank, congrArg (c :: ·) (hexact h)⟩
      · exact ⟨[], hnil, hexact h⟩
    · exact ⟨[], hnil, hexact h⟩

variable (definition) in
theorem typeAfter?_blank (h : rest.head?.any Text.isNameChar = false) :
    typeAfter? definition (' ' :: (definition ++ rest)) = some rest := by
  have hp : definition.isPrefixOf (definition ++ rest) = true :=
    List.isPrefixOf_iff_prefix.mpr (List.prefix_append _ _)
  have hblank : Text.isBlank ' ' = true := by decide
  simp only [typeAfter?, hblank, hp, if_true, List.drop_left, h, Bool.false_eq_true, if_false,
    Option.some_or]

theorem AnnotatedAfter.cons (h : AnnotatedAfter definition s front) (c : Char) :
    AnnotatedAfter definition (c :: s) (c :: front) := by
  obtain ⟨name, back, hfront, hs, hsome⟩ := h
  exact ⟨c :: name, back, congrArg (c :: ·) hfront, congrArg (c :: ·) hs, hsome⟩

theorem wrapType_append {name : List Char} (h : typeAfter? definition back = some rest)
    (hfirst : ∀ front, AnnotatedAfter definition (name ++ ':' :: back) front →
      (name ++ [':']).length ≤ front.length) :
    wrapType definition wrapper (name ++ ':' :: back) =
      wrappedAfter definition wrapper (name ++ [':']) rest := by
  induction name with
  | nil => simp [wrapType, h, wrappedAfter]
  | cons c name ih =>
    have hskip :
        (if c = ':' then typeAfter? definition (name ++ ':' :: back) else none) = none := by
      split
      · next hc =>
        by_contra hsome
        have hlength := hfirst [c]
          ⟨[], name ++ ':' :: back, by rw [hc]; rfl, rfl, Option.isSome_iff_ne_none.mpr hsome⟩
        simp at hlength
      · rfl
    have hrest := ih fun front hfront => by simpa using hfirst (c :: front) (hfront.cons c)
    rw [List.cons_append, wrapType, hskip]
    simp only [hrest]
    rfl

/-- A list without an annotation of the type stays as it is. -/
theorem wrapType_eq_self (h : ∀ front, ¬ AnnotatedAfter definition s front) :
    wrapType definition wrapper s = s := by
  induction s with
  | nil => rfl
  | cons c s ih =>
    have hrest := ih fun front hfront => h _ (hfront.cons c)
    rw [wrapType]
    split
    · next rest hsome =>
      split at hsome
      · next hc =>
        exact absurd ⟨[], s, rfl, by rw [hc]; rfl, by rw [hsome]; rfl⟩ (h [':'])
      · exact nomatch hsome
    · rw [hrest]

variable (wrapper) in
theorem wrapType_eq_of_first (h : FirstAnnotatedAfter definition s front) :
    ∃ blank rest, (∀ c ∈ blank, Text.isBlank c = true) ∧
      s = front ++ (blank ++ (definition ++ rest)) ∧
      wrapType definition wrapper s = wrappedAfter definition wrapper front rest := by
  obtain ⟨⟨name, back, rfl, rfl, hsome⟩, hfirst⟩ := h
  obtain ⟨rest, hrest⟩ := Option.isSome_iff_exists.mp hsome
  obtain ⟨blank, hblank, hback⟩ := exists_of_typeAfter?_eq_some hrest
  refine ⟨blank, rest, hblank, by rw [hback], ?_⟩
  rw [List.append_assoc] at hfirst ⊢
  exact wrapType_append hrest hfirst

theorem exists_first_annotation (h : AnnotatedAfter definition s front) :
    ∃ first, FirstAnnotatedAfter definition s first := by
  obtain ⟨first, hmem, hmin⟩ := (measure List.length).wf.has_min
    {front | AnnotatedAfter definition s front} ⟨front, h⟩
  exact ⟨first, hmem, fun other hother => Nat.le_of_not_lt (hmin other hother)⟩

/-! ### Two places for one wrapper -/

/-- How many marks a text starts with. -/
def leading (mark : Char) (s : List Char) : Nat := (s.takeWhile (· = mark)).length

theorem leading_cons_self (mark : Char) (s : List Char) :
    leading mark (mark :: s) = leading mark s + 1 := by
  simp [leading]

theorem leading_append (mark : Char) (s t : List Char) :
    leading mark (s ++ t) =
      if leading mark s = s.length then s.length + leading mark t else leading mark s := by
  rw [leading, leading, List.takeWhile_append]
  split
  · rw [List.length_append]; rfl
  · rfl

theorem leading_append_cons {mark c : Char} (hc : c ≠ mark) (t : List Char) :
    leading mark (s ++ c :: t) = leading mark s := by
  have hnone : leading mark (c :: t) = 0 := by simp [leading, hc]
  rw [leading_append, hnone]
  split <;> simp_all

/-- A text that is moved past another one has as many marks in front of it as before, so it shows
where no mark has been put in front. -/
theorem not_shifted (mark : Char) {a b : Char} {shift t t' u u' : List Char} (ha : a ≠ mark)
    (hb : b ≠ mark) (hshift : shift ≠ []) (hplain : shift ++ (s ++ t) = s ++ a :: t')
    (hmarked : shift ++ mark :: u = mark :: (s ++ b :: u')) : False := by
  have hone : leading mark (mark :: (s ++ b :: u')) = leading mark s + 1 := by
    rw [leading_cons_self, leading_append_cons hb]
  have hmarks := congrArg (leading mark) hmarked
  have hnone := congrArg (leading mark) hplain
  have hle : leading mark s ≤ leading mark (s ++ t) := by
    have hs : leading mark s ≤ s.length := (List.takeWhile_sublist _).length_le
    rw [leading_append]
    split <;> omega
  have hpos := List.length_pos_of_ne_nil hshift
  rw [leading_append, hone] at hmarks
  rw [leading_append, leading_append_cons ha] at hnone
  split at hnone
  · omega
  · next hsome => rw [if_neg hsome] at hmarks; omega

/-- The wrapper around an earlier annotation makes another text. -/
theorem wrapped_ne_of_shorter {front front' blank rest rest' : List Char}
    (hshorter : front.length < front'.length)
    (h : front ++ (blank ++ (definition ++ rest)) = front' ++ ' ' :: (definition ++ rest')) :
    wrappedAfter definition wrapper front rest ≠ wrappedAfter definition wrapper front' rest' := by
  intro heq
  have hlengths := congrArg List.length h
  have hlengths' := congrArg List.length heq
  simp only [wrappedAfter, List.length_append, List.length_cons] at hlengths hlengths'
  -- seen from behind, what stands between the two annotations is moved past the type
  have hend (front rest : List Char) : rest <:+ wrappedAfter definition wrapper front rest :=
    ⟨front ++ ' ' :: (wrapper ++ '<' :: (definition ++ ['>'])), by simp [wrappedAfter]⟩
  have hsuffix : rest' <:+ rest :=
    List.suffix_of_suffix_length_le (heq ▸ hend front' rest') (hend front rest) (by omega)
  obtain ⟨shift, rfl⟩ := hsuffix
  have hshift : shift.reverse ≠ [] := by
    rintro hnil
    rw [List.reverse_eq_nil_iff.mp hnil] at hlengths hlengths'
    simp only [List.nil_append] at hlengths hlengths'
    omega
  have hplain := congrArg List.reverse h
  have hmarked := congrArg List.reverse heq
  simp only [wrappedAfter, List.reverse_append, List.reverse_cons, List.append_assoc,
    List.append_cancel_left_eq, List.cons_append, List.nil_append] at hplain hmarked
  exact not_shifted '>' (by decide) (by decide) hshift hplain hmarked

/-- An annotation is put in the wrapper exactly if it is the first one of its type. -/
theorem wrapType_eq_iff {name : List Char} (hrest : rest.head?.any Text.isNameChar = false) :
    wrapType definition wrapper ((name ++ [':']) ++ ' ' :: (definition ++ rest)) =
        wrappedAfter definition wrapper (name ++ [':']) rest ↔
      FirstAnnotatedAfter definition ((name ++ [':']) ++ ' ' :: (definition ++ rest))
        (name ++ [':']) := by
  have hback := typeAfter?_blank definition hrest
  have hannotated : AnnotatedAfter definition ((name ++ [':']) ++ ' ' :: (definition ++ rest))
      (name ++ [':']) :=
    ⟨name, _, rfl, rfl, by rw [hback]; rfl⟩
  constructor
  · intro h
    obtain ⟨first, hfirst⟩ := exists_first_annotation hannotated
    obtain ⟨blank, rest', -, hs, hwrap⟩ := wrapType_eq_of_first wrapper hfirst
    rcases (hfirst.2 _ hannotated).lt_or_eq with hshorter | hlength
    · exact absurd (hwrap.symm.trans h) (wrapped_ne_of_shorter hshorter hs.symm)
    · exact (List.append_inj hs hlength.symm).1 ▸ hfirst
  · intro h
    have hfirst := h.2
    rw [List.append_assoc] at hfirst ⊢
    exact wrapType_append hback hfirst

end Annotations

/-! ### The parameter list -/

theorem Text.exists_commaListOfNonempty_eq (before after : List String) :
    ∃ front back, (∀ c ∈ back.toList.head?, c = ',') ∧ ∀ text, text ≠ "" →
      commaListOfNonempty (before ++ [text]) = front ++ text ∧
        commaListOfNonempty (before ++ text :: after) = front ++ text ++ back := by
  have hafter : ∃ back, (∀ c ∈ back.toList.head?, c = ',') ∧ ∀ text,
      commaList (text :: after.filter (· ≠ "")) = text ++ back := by
    cases after.filter (· ≠ "") with
    | nil => exact ⟨"", by simp, fun text => by rw [commaList_singleton, String.append_empty]⟩
    | cons next rest =>
      refine ⟨", " ++ commaList (next :: rest), ?_, fun text => ?_⟩
      · rw [String.toList_append]
        exact fun c hc => (Option.some.inj hc).symm
      · rw [commaList_cons_cons, String.append_assoc]
  have hbefore : ∃ front, ∀ texts, texts ≠ [] →
      commaList (before.filter (· ≠ "") ++ texts) = front ++ commaList texts := by
    by_cases hnil : before.filter (· ≠ "") = []
    · exact ⟨"", fun texts _ => by rw [hnil, List.nil_append, String.empty_append]⟩
    · exact ⟨commaList (before.filter (· ≠ "")) ++ ", ", fun texts hne =>
        String.intercalate_append_of_ne_nil hnil hne⟩
  obtain ⟨back, hcomma, hback⟩ := hafter
  obtain ⟨front, hfront⟩ := hbefore
  refine ⟨front, back, hcomma, fun text hne => ⟨?_, ?_⟩⟩
  · have hfilter : (before ++ [text]).filter (· ≠ "") = before.filter (· ≠ "") ++ [text] := by
      simp [hne]
    rw [commaListOfNonempty, hfilter, hfront _ (List.cons_ne_nil _ _)]
    rw [commaList_singleton]
  · have hfilter : (before ++ text :: after).filter (· ≠ "") =
        before.filter (· ≠ "") ++ text :: after.filter (· ≠ "") := by
      simp [hne]
    rw [commaListOfNonempty, hfilter, hfront _ (List.cons_ne_nil _ _), hback, String.append_assoc]

namespace Endpoint

variable {ctx : Context} {e : Endpoint} {exported generic : Bool}

/-- The list of an operation's parameters, where that of the body is `declared: Type`, has the type
in the wrapper that the mutator names, and nothing else changed, exactly if the annotation of the
body is the first one of its type. Over fetch no type is put in a wrapper. -/
theorem wraps_body_type_iff {mutator : Mutator} {wrapper declared : String}
    {before after : List Argument} {body : Argument} (hm : e.operation.mutator = some mutator)
    (hs : e.operation.overrides.singleRequest = false)
    (hw : mutator.bodyTypeName = some wrapper) (hne : wrapper ≠ "")
    (hd : e.operation.body.definition ≠ "")
    (hargs : e.operation.arguments = before ++ body :: after)
    (hbody : body.implementation = declared ++ ": " ++ e.operation.body.definition) :
    (∃ f list, e.requestOver ctx exported generic .mutator = .ok f ∧
      f.params.head? = some (.arguments list) ∧
      (list = Text.commaListOfNonempty (before.map (·.implementation) ++
          (declared ++ ": " ++ wrapper ++ "<" ++ e.operation.body.definition ++ ">") ::
            after.map (·.implementation)) ↔
        FirstAnnotatedAfter e.operation.body.definition.toList e.operation.argumentList.toList
          (Text.commaListOfNonempty (before.map (·.implementation) ++
            [declared ++ ":"])).toList)) ∧
      ∀ f, e.requestOver ctx exported generic .fetch = .ok f →
        f.params.head? = some (.arguments e.operation.argumentList) := by
  constructor
  · refine ⟨e.mutatorFlat ctx mutator exported, e.mutatorArgumentList mutator,
      (Sender.mutatorFlat hm hs).requestOver_eq, rfl, ?_⟩
    obtain ⟨front, back, hcomma, hlist⟩ := Text.exists_commaListOfNonempty_eq
      (before.map (·.implementation)) (after.map (·.implementation))
    have hcolon {text : String} (h : ':' ∈ text.toList) : text ≠ "" := by
      rintro rfl
      exact nomatch h
    have hplain : e.operation.argumentList.toList = (front.toList ++ declared.toList ++ [':']) ++
        ' ' :: (e.operation.body.definition.toList ++ back.toList) := by
      rw [Operation.argumentList, hargs, List.map_append, List.map_cons,
        (hlist _ (hcolon (by simp [hbody]))).2, hbody]
      simp
    have htarget : (Text.commaListOfNonempty (before.map (·.implementation) ++
        (declared ++ ": " ++ wrapper ++ "<" ++ e.operation.body.definition ++ ">") ::
          after.map (·.implementation))).toList =
        wrappedAfter e.operation.body.definition.toList wrapper.toList
          (front.toList ++ declared.toList ++ [':']) back.toList := by
      rw [(hlist _ (hcolon (by simp))).2]
      simp [wrappedAfter]
    have hhead : (Text.commaListOfNonempty (before.map (·.implementation) ++
        [declared ++ ":"])).toList = front.toList ++ declared.toList ++ [':'] := by
      rw [(hlist _ (hcolon (by simp))).1]
      simp
    have hback : back.toList.head?.any Text.isNameChar = false := by
      cases h : back.toList.head? with
      | none => rfl
      | some c => rw [hcomma c h]; decide
    rw [mutatorArgumentList]
    simp only [hw, hne, hd, ne_eq, not_false_eq_true, and_self, if_true]
    rw [← String.toList_inj, htarget, hhead, wrapBodyType, String.toList_ofList, hplain]
    exact wrapType_eq_iff hback
  · intro f hf
    cases requestOver_eq_ok_iff.mp hf with
    | fetch =>
      unfold fetchSender
      split <;> rfl

end Endpoint

/-- An operation with a path parameter of the same type as its body. -/
def setStatus : Endpoint where
  operation := {
    verb := .put
    operationName := "setStatus"
    body := { definition := "PetStatus", implementation := "petStatus" }
    arguments := [
      { name := "status", definition := "status: PetStatus",
        implementation := "status: PetStatus" },
      { name := "petStatus", definition := "petStatus: PetStatus",
        implementation := "petStatus: PetStatus", kind := .body }]
    mutator := some { name := "customInstance", bodyTypeName := some "BodyType" } }
  route := "/pets/${status}"
  pathRoute := "/pets/{status}"

/-- The path parameter of `setStatus` gets the wrapper that is meant for the body. -/
theorem status_wrapped_setStatus :
    ∃ f list, setStatus.requestOver {} false true .mutator = .ok f ∧
      f.params.head? = some (.arguments list) ∧
      list ≠ "status: PetStatus, petStatus: BodyType<PetStatus>" := by
  obtain ⟨⟨f, list, hf, hparams, hlist⟩, -⟩ := @Endpoint.wraps_body_type_iff {} setStatus
    false true _ _ "petStatus" (setStatus.operation.arguments.take 1) [] _
    rfl rfl rfl (by decide) (by decide) rfl rfl
  refine ⟨f, list, hf, hparams, mt hlist.mp fun hfirst => ?_⟩
  have hstatus : AnnotatedAfter "PetStatus".toList "status: PetStatus, petStatus: PetStatus".toList
      "status:".toList :=
    ⟨"status".toList, " PetStatus, petStatus: PetStatus".toList, rfl, rfl, by decide⟩
  exact absurd (hfirst.2 _ hstatus) (by decide)

end RequestGen
