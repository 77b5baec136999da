import Mathlib.Data.List.Forall2
import Mathlib.Data.List.Nodup
import RequestGen.Proofs.Code.DeclaredNames
import RequestGen.Proofs.Distinct

/-! # The member types of a response

A response type has one member type for each key that responses are documented under. Entries of
one key are merged as in a table that is written twice: the key keeps its first place and has its
last entry (`keys_lastOfEachKey`, `isLastOf_of_mem`). The name of a member ends in the casing of its
key, which tells keys apart: a code or a range is its own casing, and that of `default` starts with
a capital (`pascal_inj_of_isResponseKey`). So `Operation.declares_each_status` finds all declared
names distinct, those of the union and of the full type included. -/

namespace RequestGen

/-! ### One entry for each key -/

/-- The entry is the last one of its key. -/
def IsLastOf (entry : StatusType) (entries : List StatusType) : Prop :=
  ∃ before after, entries = before ++ entry :: after ∧ ∀ other ∈ after, other.key ≠ entry.key

theorem IsLastOf.cons {entry : StatusType} {entries : List StatusType}
    (h : IsLastOf entry entries) (first : StatusType) : IsLastOf entry (first :: entries) := by
  obtain ⟨before, after, rfl, hafter⟩ := h
  exact ⟨first :: before, after, rfl, hafter⟩

theorem isLastOf_find? (first : StatusType) (entries : List StatusType) :
    IsLastOf ((entries.reverse.find? (·.key = first.key)).getD first) (first :: entries) ∧
      ((entries.reverse.find? (·.key = first.key)).getD first).key = first.key := by
  cases hfind : entries.reverse.find? (·.key = first.key) with
  | none =>
    refine ⟨⟨[], entries, rfl, ?_⟩, rfl⟩
    intro other hother
    simpa using List.find?_eq_none.mp hfind other (List.mem_reverse.mpr hother)
  | some last =>
    obtain ⟨hkey, later, earlier, hsplit, hlater⟩ := List.find?_eq_some_iff_append.mp hfind
    have hkey : last.key = first.key := of_decide_eq_true hkey
    have hentries : entries = earlier.reverse ++ last :: later.reverse := by
      rw [← List.reverse_reverse entries, hsplit]
      simp
    refine ⟨?_, hkey⟩
    -- the first of the key from behind is the last one from the front
    rw [hentries]
    refine IsLastOf.cons ⟨earlier.reverse, later.reverse, rfl, ?_⟩ first
    intro other hother
    have hne := hlater other (List.mem_reverse.mp hother)
    rw [Option.getD_some, hkey]
    simpa using hne

theorem isLastOf_of_mem {entry : StatusType} {entries : List StatusType}
    (h : entry ∈ lastOfEachKey entries) : IsLastOf entry entries := by
  induction entries with
  | nil => exact absurd h List.not_mem_nil
  | cons first entries ih =>
    rcases List.mem_cons.mp h with rfl | h
    · exact (isLastOf_find? first entries).1
    · exact (ih (List.mem_filter.mp h).1).cons first

/-- Each key is kept once, where it stands first. -/
theorem keys_lastOfEachKey (entries : List StatusType) :
    (lastOfEachKey entries).map (·.key) = (entries.map (·.key)).eraseDups := by
  induction entries with
  | nil => rfl
  | cons first entries ih =>
    have hfilter : ((lastOfEachKey entries).filter (·.key ≠ first.key)).map (·.key) =
        ((entries.map (·.key)).filter fun key => !key == first.key).eraseDups := by
      rw [eraseDups_filter, ← ih, List.filter_map]
      congr 1
      refine List.filter_congr ?_
      intro entry _
      simp [Bool.beq_eq_decide_eq]
    rw [lastOfEachKey, List.map_cons, (isLastOf_find? first entries).2, hfilter, List.map_cons,
      List.eraseDups_cons]

theorem mem_keys_lastOfEachKey {key : String} {entries : List StatusType} :
    key ∈ (lastOfEachKey entries).map (·.key) ↔ key ∈ entries.map (·.key) := by
  rw [keys_lastOfEachKey, List.mem_eraseDups]

/-! ### Casings of keys -/

/-- A key that responses may be documented under: a code, a digit and `XX`, or `default`. -/
def IsResponseKey (key : String) : Prop :=
  (key ≠ "" ∧ ∀ c ∈ key.toList, c.isDigit = true) ∨
    (∃ first : Char, first.isDigit = true ∧ key = String.ofList [first, 'X', 'X']) ∨
    key = "default"

theorem IsResponseKey.exists_head {key : String} (h : IsResponseKey key) :
    ∃ c s, key.toList = c :: s ∧ Naming.isSmall c = true := by
  rcases h with ⟨hne, hdigits⟩ | ⟨first, hfirst, rfl⟩ | rfl
  · cases hs : key.toList with
    | nil => exact absurd (String.toList_eq_nil_iff.mp hs) hne
    | cons c s =>
      refine ⟨c, s, rfl, Naming.isSmall_of_isDigit (hdigits c ?_)⟩
      rw [hs]
      exact List.mem_cons_self
  · exact ⟨first, ['X', 'X'], String.toList_ofList, Naming.isSmall_of_isDigit hfirst⟩
  · exact ⟨'d', "efault".toList, rfl, rfl⟩

theorem IsResponseKey.ne_of_head {key : String} (h : IsResponseKey key) {text : String}
    (htext : text.toList.head?.any Naming.isSmall = false) : key ≠ text := by
  rintro rfl
  obtain ⟨c, s, hs, hc⟩ := h.exists_head
  rw [hs] at htext
  exact absurd (hc.symm.trans htext) (by decide)

theorem pascal_of_isResponseKey {key : String} (h : IsResponseKey key) :
    Naming.pascal key = if key = "default" then "Default" else key := by
  rcases h with ⟨hne, hdigits⟩ | ⟨first, hfirst, rfl⟩ | rfl
  · have hdefault : key ≠ "default" := by
      rintro rfl
      exact absurd (hdigits 'd' (by decide)) (by decide)
    rw [if_neg hdefault]
    exact Naming.pascal_of_isDigit hdigits
  · have hdefault : String.ofList [first, 'X', 'X'] ≠ "default" := by
      intro heq
      have hlength := congrArg (·.toList.length) heq
      simp at hlength
    have hrun : Naming.words [first, 'X', 'X'] = [[first], ['X', 'X']] := by
      have hsmall : ∀ c ∈ [first], Naming.isSmall c = true :=
        List.forall_mem_singleton.mpr (Naming.isSmall_of_isDigit hfirst)
      have hcapitals : Naming.words ['X', 'X'] = [['X', 'X']] := by decide +kernel
      rw [← hcapitals]
      exact Naming.words_append (List.cons_ne_nil _ _) hsmall rfl
    rw [if_neg hdefault, Naming.pascal, Naming.pascalChars, String.toList_ofList, hrun]
    simp [Naming.capitalize, Naming.toUpper_of_isDigit hfirst]
  · have hrun : Naming.words "default".toList = ["default".toList] :=
      Naming.words_of_isSmall (by decide) (List.all_eq_true.mp (by decide))
    rw [Naming.pascal, Naming.pascalChars, hrun]
    rfl

theorem pascal_inj_of_isResponseKey {key other : String} (hkey : IsResponseKey key)
    (hother : IsResponseKey other) (h : Naming.pascal key = Naming.pascal other) : key = other := by
  have hcapital : "Default".toList.head?.any Naming.isSmall = false := by decide
  rw [pascal_of_isResponseKey hkey, pascal_of_isResponseKey hother] at h
  split at h <;> split at h
  · next hk ho => rw [hk, ho]
  · exact absurd h.symm (hother.ne_of_head hcapital)
  · exact absurd h (hkey.ne_of_head hcapital)
  · exact h

theorem pascal_ne_of_isResponseKey {key : String} (h : IsResponseKey key) :
    Naming.pascal key ≠ "Composite" ∧ Naming.pascal key ≠ "" := by
  rw [pascal_of_isResponseKey h]
  split
  · decide
  · exact ⟨h.ne_of_head (by decide), h.ne_of_head (by decide)⟩

/-! ### The statuses of a key -/

/-- The text that stands for the statuses of a key, where `codes` are the documented codes. -/
inductive StatusText (codes : List String) : String → String → Prop
  | code {key : String} (h : Text.isDigits key = true) : StatusText codes key key
  | all (h : codes = []) : StatusText codes "default" "HTTPStatusCodes"
  | others (h : codes ≠ []) : StatusText codes "default"
      ("Exclude<HTTPStatusCodes, " ++ String.intercalate " | " codes ++ ">")
  | range (first : Char) : StatusText codes (String.ofList [first, 'X', 'X'])
      ("HTTPStatusCode" ++ String.ofList [first] ++ "xx")

namespace Status

theorem isDigits_of_isDigit {key : String} (hne : key ≠ "")
    (hdigits : ∀ c ∈ key.toList, c.isDigit = true) : Text.isDigits key = true := by
  simp only [Text.isDigits, Bool.and_eq_true, decide_eq_true_eq, List.all_eq_true]
  refine ⟨hne, fun c hc => ?_⟩
  have hlt := Naming.toNat_lt_of_isAlphanum (Naming.isAlphanum_iff.mpr (.inr (hdigits c hc)))
  rw [Text.isDigit, if_pos hlt, hdigits c hc]

theorem statusText_render {key : String} (h : IsResponseKey key) (codes : List String) :
    StatusText codes key (ofKey codes key).render := by
  rcases h with ⟨hne, hdigits⟩ | ⟨first, -, rfl⟩ | rfl
  · have hkey := isDigits_of_isDigit hne hdigits
    rw [ofKey, if_pos hkey]
    exact .code hkey
  · have hkey : Text.isDigits (String.ofList [first, 'X', 'X']) = false := by
      rw [Text.isDigits, String.toList_ofList]
      simp [show Text.isDigit 'X' = false from by decide]
    have hdefault : String.ofList [first, 'X', 'X'] ≠ "default" := by
      intro heq
      have hlength := congrArg (·.toList.length) heq
      simp at hlength
    have hrender : (ofKey codes (String.ofList [first, 'X', 'X'])).render =
        "HTTPStatusCode" ++ String.ofList [first] ++ "xx" := by
      rw [ofKey, hkey, if_neg Bool.false_ne_true, if_neg hdefault, String.toList_ofList]
      rfl
    rw [hrender]
    exact .range first
  · cases codes with
    | nil => exact .all rfl
    | cons code codes => exact .others (List.cons_ne_nil code codes)

end Status

/-! ### The declarations -/

namespace Operation

variable {op : Operation}

/-- The keys under which responses are documented. -/
def statusKeys (op : Operation) : List String :=
  (op.response.successTypes ++ op.response.errorTypes).map (·.key)

/-- The documented status codes. -/
def documentedCodes (op : Operation) : List String :=
  (op.statusEntries.map (·.key)).filter Text.isDigits

/-- The member type of a key: its name ends in the casing of the key, and the last entry of the key
gives its data. -/
structure IsMemberOf (op : Operation) (key : String) (m : StatusMember) : Prop where
  name : m.name = op.responseName ++ Naming.pascal key
  data : ∃ entry, IsLastOf entry (op.response.successTypes ++ op.response.errorTypes) ∧
    entry.key = key ∧ m.data = orUnknown entry.value
  status : m.status = Status.ofKey op.documentedCodes key

/-- The name of the member type of a key. -/
def memberName (op : Operation) (key : String) : String :=
  op.operationName ++ "Response" ++ Naming.pascal key

/-- The declaration of the member type of a key: its data are the value of the key's last entry. -/
def DeclaresMember (op : Operation) (key declaration : String) : Prop :=
  ∃ entry status, IsLastOf entry (op.response.successTypes ++ op.response.errorTypes) ∧
    entry.key = key ∧ StatusText (op.statusKeys.eraseDups.filter Text.isDigits) key status ∧
    declaration = "export type " ++ op.memberName key ++ " = \x7b\n  data: " ++
      (if entry.value = "" then "unknown" else entry.value) ++ ";\n  status: " ++ status ++
        ";\n\x7d;"

/-- The names of the types of the responses: of the members, of their union and of the full type. -/
def responseTypeNames (op : Operation) : List String :=
  op.statusKeys.eraseDups.map op.memberName ++
    [op.operationName ++ "ResponseComposite", op.operationName ++ "Response"]

/-- What the declarations of a response type by status are. -/
structure DeclaresByStatus (op : Operation) : Prop where
  /-- One member for each key, in the order in which the keys stand first; then their union, then
  the full type. -/
  declarations : ∃ members,
    List.Forall₂ op.DeclaresMember op.statusKeys.eraseDups members ∧
      op.responseDeclarations = members ++
        ["export type " ++ op.operationName ++ "ResponseComposite = " ++
            String.intercalate " | " (op.statusKeys.eraseDups.map op.memberName) ++ ";",
          "export type " ++ op.operationName ++ "Response = " ++ op.operationName ++
            "ResponseComposite & \x7b\n  headers: Headers;\n\x7d;"]
  declared : List.Forall₂ IsTypeDeclaration op.responseDeclarations op.responseTypeNames
  distinct : op.responseTypeNames.Nodup

theorem map_name_statusMembers (op : Operation) :
    op.statusMembers.map (·.name) = op.statusKeys.eraseDups.map op.memberName := by
  rw [statusKeys, ← keys_lastOfEachKey, List.map_map, statusMembers, List.map_map]
  rfl

theorem forall₂_isMemberOf (op : Operation) :
    List.Forall₂ op.IsMemberOf op.statusKeys.eraseDups op.statusMembers := by
  rw [statusKeys, ← keys_lastOfEachKey, statusMembers]
  refine List.forall₂_map_left_iff.mpr (List.forall₂_map_right_iff.mpr (List.forall₂_same.mpr ?_))
  intro entry hentry
  exact ⟨rfl, ⟨entry, isLastOf_of_mem hentry, rfl, rfl⟩, rfl⟩

theorem render_eq_append (m : StatusMember) : m.render = "export type " ++ m.name ++
    " = \x7b\n  data: " ++ m.data ++ ";\n  status: " ++ m.status.render ++ ";\n\x7d;" :=
  rfl

theorem IsMemberOf.mem_statusKeys {key : String} {m : StatusMember} (h : op.IsMemberOf key m) :
    key ∈ op.statusKeys := by
  obtain ⟨entry, ⟨before, after, hsplit, -⟩, rfl, -⟩ := h.data
  rw [statusKeys, hsplit]
  exact List.mem_map_of_mem (List.mem_append_right _ List.mem_cons_self)

theorem IsMemberOf.declaresMember (hkeys : ∀ key ∈ op.statusKeys, IsResponseKey key) {key : String}
    {m : StatusMember} (h : op.IsMemberOf key m) : op.DeclaresMember key m.render := by
  have hkey := hkeys key h.mem_statusKeys
  obtain ⟨hname, ⟨entry, hlast, hentry, hdata⟩, hstatus⟩ := h
  refine ⟨entry, m.status.render, hlast, hentry, ?_, ?_⟩
  · rw [hstatus, documentedCodes, statusEntries, keys_lastOfEachKey]
    exact Status.statusText_render hkey _
  · rw [render_eq_append, hname, hdata]
    rfl

theorem responseDeclarations_of_statusKeys (hne : op.statusKeys ≠ []) :
    op.responseDeclarations = op.statusMembers.map StatusMember.render ++
      ["export type " ++ op.operationName ++ "ResponseComposite = " ++
          String.intercalate " | " (op.statusKeys.eraseDups.map op.memberName) ++ ";",
        "export type " ++ op.operationName ++ "Response = " ++ op.operationName ++
          "ResponseComposite & \x7b\n  headers: Headers;\n\x7d;"] := by
  rw [← map_name_statusMembers]
  unfold responseDeclarations
  dsimp only
  split
  · next hnone =>
    -- a documented key has a member
    obtain ⟨key, hkey⟩ := List.exists_mem_of_ne_nil _ hne
    have hforall := op.forall₂_isMemberOf
    rw [hnone, List.forall₂_nil_right_iff] at hforall
    rw [← List.mem_eraseDups, hforall] at hkey
    exact absurd hkey List.not_mem_nil
  · have hunion (union : String) : s!"export type {op.responseName}Composite = {union};" =
        "export type " ++ op.operationName ++ "ResponseComposite = " ++ union ++ ";" := by
      apply String.ext
      simp [responseName, toString]
    have hfull (name : String) :
        s!"export type {name} = {name}Composite & \x7b\n  headers: Headers;\n\x7d;" =
          "export type " ++ name ++ " = " ++ name ++
            "Composite & \x7b\n  headers: Headers;\n\x7d;" := by
      apply String.ext
      simp [toString]
    have hname : "export type " ++ op.responseName ++ " = " ++ op.responseName ++
        "Composite & \x7b\n  headers: Headers;\n\x7d;" =
          "export type " ++ op.operationName ++ "Response = " ++ op.operationName ++
            "ResponseComposite & \x7b\n  headers: Headers;\n\x7d;" := by
      apply String.ext
      simp [responseName, toString]
    rw [hunion, hfull, hname]

theorem isTypeDeclaration_of_declaresMember {key declaration : String}
    (h : op.DeclaresMember key declaration) :
    IsTypeDeclaration declaration (op.memberName key) := by
  obtain ⟨entry, status, -, -, -, rfl⟩ := h
  refine ⟨"\x7b\n  data: " ++ (if entry.value = "" then "unknown" else entry.value) ++
    ";\n  status: " ++ status ++ ";\n\x7d;", ?_⟩
  have hopening : " = \x7b\n  data: " = " = " ++ "\x7b\n  data: " := rfl
  simp only [hopening, String.append_assoc]

/-- The casings of the keys tell the members apart, and none is the ending of the union's name or of
that of the full type. -/
theorem nodup_responseTypeNames (hkeys : ∀ key ∈ op.statusKeys, IsResponseKey key) :
    op.responseTypeNames.Nodup := by
  have hkey {key : String} (h : key ∈ op.statusKeys.eraseDups) : IsResponseKey key :=
    hkeys key (List.mem_eraseDups.mp h)
  have hunion : op.operationName ++ "ResponseComposite" =
      op.operationName ++ "Response" ++ "Composite" := by
    rw [String.append_assoc]
    rfl
  rw [responseTypeNames, hunion]
  refine List.Nodup.append ?_ ?_ ?_
  · refine List.Nodup.map_on ?_ (nodup_eraseDups _)
    intro key h other hother heq
    exact pascal_inj_of_isResponseKey (hkey h) (hkey hother) (String.append_right_inj _ |>.mp heq)
  · simp
  · intro name hname hother
    obtain ⟨key, h, rfl⟩ := List.mem_map.mp hname
    obtain ⟨hunion, hempty⟩ := pascal_ne_of_isResponseKey (hkey h)
    simp only [List.mem_cons, List.not_mem_nil, or_false, memberName] at hother
    rcases hother with heq | heq
    · exact hunion ((String.append_right_inj _).mp heq)
    · exact hempty (String.append_eq_left_iff.mp heq)

/-- Where any response is documented, under codes, ranges or `default` only, one type is declared
for each key, then their union and the full type, and no name is declared twice. -/
theorem declares_each_status (hne : op.statusKeys ≠ [])
    (hkeys : ∀ key ∈ op.statusKeys, IsResponseKey key) : op.DeclaresByStatus := by
  have hmembers : List.Forall₂ op.DeclaresMember op.statusKeys.eraseDups
      (op.statusMembers.map StatusMember.render) := by
    refine List.forall₂_map_right_iff.mpr ?_
    exact op.forall₂_isMemberOf.imp fun _ _ h => h.declaresMember hkeys
  refine ⟨⟨_, hmembers, responseDeclarations_of_statusKeys hne⟩, ?_, nodup_responseTypeNames hkeys⟩
  have hdeclared : List.Forall₂ IsTypeDeclaration (op.statusMembers.map StatusMember.render)
      (op.statusKeys.eraseDups.map op.memberName) :=
    List.forall₂_map_right_iff.mpr
      (hmembers.flip.imp fun _ _ h => isTypeDeclaration_of_declaresMember h)
  rw [responseDeclarations_of_statusKeys hne, responseTypeNames]
  refine List.rel_append hdeclared (.cons ⟨String.intercalate " | "
    (op.statusKeys.eraseDups.map op.memberName) ++ ";", ?_⟩ (.cons ⟨op.operationName ++
      "ResponseComposite & \x7b\n  headers: Headers;\n\x7d;", ?_⟩ .nil))
  · have hname : "ResponseComposite = " = "ResponseComposite" ++ " = " := rfl
    simp only [hname, String.append_assoc]
  · have hname : "Response = " = "Response" ++ " = " := rfl
    simp only [hname, String.append_assoc]

/-- An operation with a code that is documented as a success and as a failure. -/
def listPetsByStatus : Operation where
  verb := .get
  operationName := "listPets"
  response := {
    successTypes := [{ key := "200", value := "Pets" }, { key := "default", value := "Problem" }]
    errorTypes := [{ key := "4XX", value := "Problem" }, { key := "200", value := "" }] }

/-- The code keeps the first place, and its last entry is the one without a type. -/
theorem declares_listPetsByStatus :
    listPetsByStatus.DeclaresByStatus ∧
      listPetsByStatus.statusKeys.eraseDups = ["200", "default", "4XX"] ∧
      listPetsByStatus.statusMembers.map (·.data) = ["unknown", "Problem", "Problem"] := by
  have hcode : IsResponseKey "200" := .inl ⟨by decide, List.all_eq_true.mp (by decide)⟩
  have hkeys : ∀ key ∈ listPetsByStatus.statusKeys, IsResponseKey key := by
    have hrange : IsResponseKey "4XX" := .inr (.inl ⟨'4', rfl, rfl⟩)
    intro key hkey
    have hkey : key ∈ ["200", "default", "4XX", "200"] := hkey
    simp only [List.mem_cons, List.not_mem_nil, or_false] at hkey
    rcases hkey with rfl | rfl | rfl | rfl
    · exact hcode
    · exact .inr (.inr rfl)
    · exact hrange
    · exact hcode
  exact ⟨declares_each_status (List.cons_ne_nil _ _) hkeys, by decide, by decide⟩

end Operation

end RequestGen
