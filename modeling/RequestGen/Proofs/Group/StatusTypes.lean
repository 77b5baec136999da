import RequestGen.Proofs.Code.References
import RequestGen.Proofs.Group.Implementations
import RequestGen.Proofs.Request.StatusMembers

/-! # The helper types of status codes

The types of the responses of a fetch function name helper types for their statuses: all codes for
`default`, those of one hundred for a range. The header of a group declares all of them, or none: it
looks for the name of the type of all codes in the generated code. So a group that documents ranges
but no `default` names helper types that it does not declare, unless some text of an operation
happens to bring that name in (`statusTypes_declared_iff`). -/

namespace RequestGen

/-! ### Texts inside texts -/

namespace Text

theorem occursIn_iff {part s : List Char} : occursIn part s = true ↔ part <:+: s := by
  induction s with
  | nil => simp [occursIn]
  | cons c s ih => simp [occursIn, ih, List.infix_cons_iff]

theorem infix_intercalate {sep text : String} {texts : List String} (h : text ∈ texts) :
    text.toList <:+: (String.intercalate sep texts).toList := by
  induction texts with
  | nil => simp at h
  | cons first texts ih =>
    cases texts with
    | nil => rw [List.mem_singleton.mp h]; simp
    | cons next texts =>
      rw [String.intercalate_cons_cons, String.toList_append, String.toList_append]
      rcases List.mem_cons.mp h with rfl | h
      · rw [List.append_assoc]; exact (List.prefix_append _ _).isInfix
      · exact (ih h).trans (List.suffix_append _ _).isInfix

end Text

/-! ### The types that responses name -/

/-- The keys of the ranges of status codes. -/
def rangeKeys : List String := ["1XX", "2XX", "3XX", "4XX", "5XX"]

/-- The name of the type of the status codes of one hundred. -/
def hundredTypeName (first : Nat) : String := s!"HTTPStatusCode{first}xx"

/-- The helper types: of all status codes, and of those of each hundred. -/
def statusTypeNames : List String :=
  "HTTPStatusCodes" :: statusHundreds.map fun hundred => hundredTypeName hundred.1

/-- A key that responses are documented under: a code, a range or `default`. -/
def IsStatusKey (key : String) : Prop :=
  (key ≠ "" ∧ ∀ c ∈ key.toList, c.isDigit = true) ∨ key ∈ rangeKeys ∨ key = "default"

namespace Operation

variable {op : Operation} {name : String}

/-- Whether the type of a response names a type as its status. -/
def NamesStatusType (op : Operation) (name : String) : Prop :=
  ∃ m ∈ op.statusMembers, refersTo m.status.render name = true

theorem exists_statusMember {key : String} (h : key ∈ op.statusKeys) :
    ∃ m ∈ op.statusMembers, m.status = Status.ofKey op.documentedCodes key := by
  obtain ⟨entry, hentry, rfl⟩ := List.mem_map.mp (mem_keys_lastOfEachKey.mpr h)
  exact ⟨_, List.mem_map.mpr ⟨entry, hentry, rfl⟩, rfl⟩

theorem namesStatusType_iff : op.NamesStatusType name ↔
    ∃ key ∈ op.statusKeys, refersTo (Status.ofKey op.documentedCodes key).render name = true := by
  constructor
  · rintro ⟨m, hm, h⟩
    obtain ⟨entry, hentry, rfl⟩ := List.mem_map.mp hm
    exact ⟨entry.key, mem_keys_lastOfEachKey.mp (List.mem_map.mpr ⟨entry, hentry, rfl⟩), h⟩
  · rintro ⟨key, hkey, h⟩
    obtain ⟨m, hm, hstatus⟩ := exists_statusMember hkey
    exact ⟨m, hm, hstatus ▸ h⟩

end Operation

namespace Status

variable {name : String}

theorem isPlainName_of_mem (h : name ∈ statusTypeNames) : IsPlainName name := by
  revert name; decide

theorem ofKey_code {key : String} (hne : key ≠ "") (hdigits : ∀ c ∈ key.toList, c.isDigit = true)
    (codes : List String) : ofKey codes key = code key :=
  if_pos (isDigits_of_isDigit hne hdigits)

theorem not_refersTo_ofKey_code (hname : name ∈ statusTypeNames) {key : String} (hne : key ≠ "")
    (hdigits : ∀ c ∈ key.toList, c.isDigit = true) (codes : List String) :
    refersTo (ofKey codes key).render name = false := by
  rw [ofKey_code hne hdigits]
  show refersTo key name = false
  rw [refersTo_of_isNameChar (isPlainName_of_mem hname) fun c hc =>
    Naming.isNameChar_of_isAlphanum (Naming.isAlphanum_iff.mpr (.inr (hdigits c hc))),
    decide_eq_false_iff_not]
  rintro rfl
  have hfirst : ∀ name ∈ statusTypeNames, 'H' ∈ name.toList := by decide
  exact absurd (hdigits 'H' (hfirst _ hname)) (by decide)

theorem ofKey_default (codes : List String) : ofKey codes "default" = otherThan codes := rfl

theorem infix_render_otherThan (codes : List String) :
    "HTTPStatusCodes".toList <:+: (otherThan codes).render.toList := by
  cases codes with
  | nil => exact List.infix_refl _
  | cons code codes =>
    show _ <:+: ("Exclude<HTTPStatusCodes, " ++ String.intercalate " | " (code :: codes) ++
      ">").toList
    rw [String.toList_append, String.toList_append, List.append_assoc]
    exact ⟨"Exclude<".toList, ", ".toList ++ _, rfl⟩

theorem exists_refersTo_ofKey_range {key : String} (h : key ∈ rangeKeys) (codes : List String) :
    ∃ name ∈ statusTypeNames, refersTo (ofKey codes key).render name = true := by
  have hrange : ∀ key ∈ rangeKeys, Text.isDigits key = false ∧ key ≠ "default" ∧
      ∃ name ∈ statusTypeNames,
        refersTo (range (String.ofList (key.toList.take 1))).render name = true := by
    decide
  obtain ⟨hdigits, hdefault, hname⟩ := hrange key h
  rwa [ofKey, if_neg (Bool.eq_false_iff.mp hdigits), if_neg hdefault]

end Status

/-! ### The types that a header declares -/

/-- Whether a line of the code starts with the declaration of the type. -/
def DeclaresType (code name : String) : Prop :=
  ∃ before after, code = before ++ ("type " ++ name ++ " = ") ++ after ∧
    (before = "" ∨ ∃ lines, before = lines ++ "\n")

namespace DeclaresType

variable {code name : String}

theorem append_right (h : DeclaresType code name) (after : String) :
    DeclaresType (code ++ after) name := by
  obtain ⟨before, rest, rfl, hbefore⟩ := h
  exact ⟨before, rest ++ after, by rw [String.append_assoc], hbefore⟩

theorem append_left (h : DeclaresType code name) (lines : String) :
    DeclaresType (lines ++ "\n" ++ code) name := by
  obtain ⟨before, rest, rfl, hbefore⟩ := h
  refine ⟨lines ++ "\n" ++ before, rest, by simp only [String.append_assoc], .inr ?_⟩
  rcases hbefore with rfl | ⟨earlier, rfl⟩
  · exact ⟨lines, String.append_empty⟩
  · exact ⟨lines ++ "\n" ++ earlier, by simp only [String.append_assoc]⟩

theorem infix_toList (h : DeclaresType code name) : name.toList <:+: code.toList := by
  obtain ⟨before, rest, rfl, -⟩ := h
  refine ⟨before.toList ++ "type ".toList, " = ".toList ++ rest.toList, ?_⟩
  simp [String.toList_append]

end DeclaresType

theorem isNameChar_hundredTypeName : ∀ hundred ∈ statusHundreds,
    ∀ c ∈ (hundredTypeName hundred.1).toList, Text.isNameChar c = true :=
  fun _ h => (Status.isPlainName_of_mem (List.mem_cons_of_mem _ (List.mem_map_of_mem h))).2

/-- The declaration of the type of the codes of one hundred. -/
def hundredDeclaration (hundred : Nat × List Nat) : String :=
  "type " ++ hundredTypeName hundred.1 ++ " = " ++ unionOf (hundred.2.map toString) ++ ";" ++ "\n"

theorem declaresType_join_hundreds {first : Nat} {hundreds : List (Nat × List Nat)}
    (h : first ∈ hundreds.map Prod.fst) :
    DeclaresType (String.join (hundreds.map hundredDeclaration)) (hundredTypeName first) := by
  induction hundreds with
  | nil => simp at h
  | cons hundred hundreds ih =>
    rw [List.map_cons, String.join_cons]
    rcases List.mem_cons.mp h with rfl | h
    · refine DeclaresType.append_right
        ⟨"", unionOf (hundred.2.map toString) ++ ";" ++ "\n", ?_, .inl rfl⟩ _
      rw [String.empty_append, hundredDeclaration]
      simp only [String.append_assoc]
    · exact (ih h).append_left _

theorem join_hundreds_eq (hundreds : List (Nat × List Nat)) :
    String.join (hundreds.map hundredDeclaration) = "" ∨
      ∃ lines, String.join (hundreds.map hundredDeclaration) = lines ++ "\n" := by
  induction hundreds with
  | nil => exact .inl rfl
  | cons hundred hundreds ih =>
    rw [List.map_cons, String.join_cons]
    rcases ih with h | ⟨lines, h⟩
    · exact .inr ⟨_, by rw [h, String.append_empty, hundredDeclaration]⟩
    · exact .inr ⟨hundredDeclaration hundred ++ lines, by rw [h, String.append_assoc]⟩

theorem statusTypes_eq :
    statusTypes = String.join (statusHundreds.map hundredDeclaration) ++
      ("type " ++ "HTTPStatusCodes" ++ " = ") ++
        (unionOf (statusHundreds.map fun hundred => hundredTypeName hundred.1) ++ ";\n\n") := by
  have hhundred (hundred : Nat × List Nat) :
      "type HTTPStatusCode" ++ toString hundred.1 ++ "xx = " ++
        unionOf (hundred.2.map toString) ++ ";\n" = hundredDeclaration hundred := by
    rw [show "type HTTPStatusCode" = "type " ++ "HTTPStatusCode" from rfl,
      show "xx = " = "xx" ++ " = " from rfl, show ";\n" = ";" ++ "\n" from rfl]
    show _ = "type " ++ ("HTTPStatusCode" ++ toString hundred.1 ++ "xx") ++ " = " ++
      unionOf (hundred.2.map toString) ++ ";" ++ "\n"
    simp only [String.append_assoc]
  rw [← funext hhundred, String.append_assoc]
  simp only [String.append_assoc]
  rfl

theorem declaresType_statusTypes {name : String} (h : name ∈ statusTypeNames) :
    DeclaresType statusTypes name := by
  rw [statusTypes_eq]
  rcases List.mem_cons.mp h with rfl | h
  · exact ⟨_, _, rfl, join_hundreds_eq _⟩
  · obtain ⟨hundred, hmem, rfl⟩ := List.mem_map.mp h
    exact ((declaresType_join_hundreds (List.mem_map_of_mem hmem)).append_right _).append_right _

/-- The header of a group over fetch declares the helper types exactly if the generated code holds
the name of the type of all codes. -/
theorem HeaderInput.declaresType_fetchHeader_iff (h : HeaderInput) {name : String}
    (hname : name ∈ statusTypeNames) :
    DeclaresType h.fetchHeader name ↔
      Text.occursIn "HTTPStatusCodes".toList h.code.toList = true := by
  unfold fetchHeader
  constructor
  · intro hdeclares
    by_contra hoccurs
    rw [if_neg hoccurs, String.empty_append, secondParameter] at hdeclares
    have hinfix := hdeclares.infix_toList
    have hnone : ∀ name ∈ statusTypeNames,
        ¬ Text.occursIn name.toList secondParameterType.toList = true ∧
          ¬ Text.occursIn name.toList "".toList = true := by
      decide
    split at hinfix
    · exact (hnone name hname).1 (Text.occursIn_iff.mpr hinfix)
    · exact (hnone name hname).2 (Text.occursIn_iff.mpr hinfix)
  · intro hoccurs
    rw [if_pos hoccurs]
    exact (declaresType_statusTypes hname).append_right _

/-! ### The code of a group -/

theorem StatusMember.infix_render (m : StatusMember) :
    m.status.render.toList <:+: m.render.toList := by
  show _ <:+: ("export type " ++ m.name ++ " = \x7b\n  data: " ++ m.data ++ ";\n  status: " ++
    m.status.render ++ ";\n\x7d;").toList
  rw [String.toList_append, String.toList_append]
  exact ⟨_, _, rfl⟩

theorem Operation.render_mem_responseDeclarations {op : Operation} {m : StatusMember}
    (h : m ∈ op.statusMembers) : m.render ∈ op.responseDeclarations := by
  unfold responseDeclarations
  dsimp only
  split
  · next hnone => rw [hnone] at h; exact absurd h List.not_mem_nil
  · exact List.mem_append_left _ (List.mem_map_of_mem h)

theorem Endpoint.infix_fetchRequest {e : Endpoint} {output : OutputConfig}
    (hinclude : output.includeHttpResponse = true)
    (h : "default" ∈ e.operation.statusKeys) :
    "HTTPStatusCodes".toList <:+: (e.fetchRequest output).toList := by
  obtain ⟨m, hm, hstatus⟩ := Operation.exists_statusMember h
  have hmember : "HTTPStatusCodes".toList <:+: m.render.toList := by
    rw [Status.ofKey_default] at hstatus
    exact (hstatus ▸ Status.infix_render_otherThan _).trans m.infix_render
  have htypes : m.render.toList <:+:
      (String.intercalate "\n\n" e.operation.responseDeclarations ++ "\n").toList := by
    rw [String.toList_append]
    exact (Text.infix_intercalate (Operation.render_mem_responseDeclarations hm)).trans
      (List.prefix_append _ _).isInfix
  refine (hmember.trans htypes).trans (Text.infix_intercalate ?_)
  simp [hinclude]

namespace Group

variable {ctx : Context} {t : ResultTable} {title : String} {endpoints : List Endpoint}

theorem exists_header_eq_fetchHeader {left : ResultTable} {g : Group}
    (hfetch : ctx.output.httpClient = .fetch)
    (hg : rebuild t .swr ctx title endpoints = (left, .ok g)) :
    ∃ h : HeaderInput, g.header = h.fetchHeader ∧ h.code = Text.lines g.implementations := by
  obtain ⟨generated, rest, -, rfl⟩ := exists_of_rebuild hg
  exact ⟨_, (if_pos hfetch).trans (if_pos hfetch), rfl⟩

/-- In a group of hooks over fetch with response types, every helper type that a response names is
declared exactly if no range is documented, or some `default` is, or the name of the type of all
codes gets into the code otherwise. -/
theorem statusTypes_declared_iff (hfetch : ctx.output.httpClient = .fetch)
    (hinclude : ctx.output.includeHttpResponse = true)
    (hkeys : ∀ e ∈ endpoints, ∀ key ∈ e.operation.statusKeys, IsStatusKey key) :
    ∃ left g, rebuild t .swr ctx title endpoints = (left, .ok g) ∧
      ((∀ name ∈ statusTypeNames, (∃ e ∈ endpoints, e.operation.NamesStatusType name) →
          DeclaresType g.header name) ↔
        ((∃ e ∈ endpoints, ∃ key ∈ e.operation.statusKeys, key ∈ rangeKeys) →
          (∃ e ∈ endpoints, "default" ∈ e.operation.statusKeys) ∨
            Text.occursIn "HTTPStatusCodes".toList
              (Text.lines g.implementations).toList = true)) := by
  have hcode (e : Endpoint) : Style.swr.implementation ctx e = .ok (e.fetchRequest ctx.output) := by
    have htransport : Style.swr.transport ctx e.operation = .fetch := by
      simp [Style.transport, Transport.resolve, hfetch]
    rw [Style.implementation, htransport]
  obtain ⟨left, g, hg⟩ : ∃ left g, rebuild t .swr ctx title endpoints = (left, .ok g) :=
    exists_rebuild fun e _ => ⟨_, hcode e⟩
  refine ⟨left, g, hg, ?_⟩
  obtain ⟨input, hheader, hinput⟩ := exists_header_eq_fetchHeader hfetch hg
  have hdeclares {name : String} (hname : name ∈ statusTypeNames) : DeclaresType g.header name ↔
      Text.occursIn "HTTPStatusCodes".toList (Text.lines g.implementations).toList = true := by
    rw [hheader, ← hinput]
    exact input.declaresType_fetchHeader_iff hname
  -- a default brings the name of the type of all codes into the code
  have hdefault : (∃ e ∈ endpoints, "default" ∈ e.operation.statusKeys) →
      Text.occursIn "HTTPStatusCodes".toList (Text.lines g.implementations).toList = true := by
    rintro ⟨e, he, hkey⟩
    obtain ⟨code, hmem, himplementation⟩ := exists_mem_implementations hg he
    obtain rfl := Except.ok.inj ((hcode e).symm.trans himplementation)
    exact Text.occursIn_iff.mpr
      ((Endpoint.infix_fetchRequest hinclude hkey).trans (Text.infix_intercalate hmem))
  constructor
  · rintro hall ⟨e, he, key, hkey, hrange⟩
    obtain ⟨name, hname, hrefers⟩ := Status.exists_refersTo_ofKey_range hrange
      e.operation.documentedCodes
    exact .inr ((hdeclares hname).mp
      (hall name hname ⟨e, he, Operation.namesStatusType_iff.mpr ⟨key, hkey, hrefers⟩⟩))
  · rintro hrange name hname ⟨e, he, hnames⟩
    obtain ⟨key, hkey, hrefers⟩ := Operation.namesStatusType_iff.mp hnames
    rw [hdeclares hname]
    rcases hkeys e he key hkey with ⟨hne, hdigits⟩ | hkeyRange | rfl
    · rw [Status.not_refersTo_ofKey_code hname hne hdigits] at hrefers
      exact absurd hrefers Bool.false_ne_true
    · exact (hrange ⟨e, he, key, hkey, hkeyRange⟩).elim hdefault id
    · exact hdefault ⟨e, he, hkey⟩

/-- A run that generates functions over fetch for hooks. -/
def fetchContext : Context where
  output := { style := .swr, httpClient := .fetch }

/-- An operation whose failures are documented under the given keys. -/
def ping (keys : List String) : Endpoint where
  operation := {
    verb := .get
    operationName := "ping"
    response := { errorTypes := keys.map fun key => { key, value := "Problem" } } }
  route := "/ping"
  pathRoute := "/ping"

/-- With a default beside it a range is told by a type that the header declares. -/
theorem statusTypes_declared_ping :
    ∃ left g, rebuild .empty .swr fetchContext "Pets" [ping ["4XX", "default"]] = (left, .ok g) ∧
      (ping ["4XX", "default"]).operation.NamesStatusType "HTTPStatusCode4xx" ∧
      DeclaresType g.header "HTTPStatusCode4xx" := by
  have hkeys : ∀ e ∈ [ping ["4XX", "default"]], ∀ key ∈ e.operation.statusKeys,
      IsStatusKey key := by
    intro e he key hkey
    rw [List.mem_singleton.mp he] at hkey
    have hkey : key ∈ ["4XX", "default"] := hkey
    simp only [List.mem_cons, List.not_mem_nil, or_false] at hkey
    rcases hkey with rfl | rfl
    · exact .inr (.inl (by decide))
    · exact .inr (.inr rfl)
  obtain ⟨left, g, hg, hiff⟩ := @statusTypes_declared_iff fetchContext .empty "Pets" _ rfl rfl hkeys
  have hnames : (ping ["4XX", "default"]).operation.NamesStatusType "HTTPStatusCode4xx" :=
    Operation.namesStatusType_iff.mpr ⟨"4XX", by decide, by decide⟩
  refine ⟨left, g, hg, hnames, hiff.mpr (fun _ => .inl ?_) _ (by decide) ?_⟩
  · exact ⟨_, List.mem_cons_self, by decide⟩
  · exact ⟨_, List.mem_cons_self, hnames⟩

end Group

end RequestGen
