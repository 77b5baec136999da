import RequestGen.Proofs.Code.Scanner
import RequestGen.Proofs.Code.UniqueLiterals
import RequestGen.Proofs.Request.TakenNames

/-! # The names that are bound from a request

The statement that takes the names of parameters out of the request binds them as they are, so each
has to be one that a script may bind. `destructure_read_iff` says when a script reads the statement
as taking exactly the given names. The test for identifiers lets reserved words pass, and a line
feed at the end, so a function binds proper names only if no parameter is called like that
(`taken_bindable_iff`). -/

namespace RequestGen

namespace Script

/-! ### Patterns -/

/-- The words that no declaration in a module may bind. -/
def unbindableWords : List String := "arguments" :: "eval" :: reservedWords

/-- A name that a declaration in a module may bind: all of it is an identifier, and it is none of
those words. -/
def IsBindingName (name : String) : Prop :=
  Naming.isIdentifierText name.toList = true ∧ name ∉ unbindableWords

/-- A declaration of constants that takes fields out of a variable by their names, and perhaps the
rest of the fields. -/
structure Destructuring where
  names : List String
  rest : Option String
  source : String
deriving DecidableEq

/-- All constants that a declaration binds. -/
def Destructuring.bound (d : Destructuring) : List String := d.names ++ d.rest.toList

/-- Whether a script may hold the declaration. -/
def Destructuring.IsLegal (d : Destructuring) : Prop :=
  d.bound.Nodup ∧ (∀ name ∈ d.bound, name ∉ unbindableWords) ∧ d.source ∉ reservedWords

instance (d : Destructuring) : Decidable d.IsLegal := by
  unfold Destructuring.IsLegal
  infer_instance

/-- The names of a pattern up to its closing brace with the name of the rest, and what follows. -/
def readBindings : List Token → Option ((List String × Option String) × List Token)
  | .mark '\x7d' :: s => some (([], none), s)
  | .dots :: .name rest :: .mark '\x7d' :: s => some (([], some rest), s)
  | .name name :: .mark '\x7d' :: s => some (([name], none), s)
  | .name name :: .mark ',' :: s =>
    (readBindings s).map fun r => ((name :: r.1.1, r.1.2), r.2)
  | _ => none

/-- The declaration that a code is. -/
def readDestructuring (code : String) : Option Destructuring :=
  match scan code.toList with
  | some (.name "const" :: .mark '\x7b' :: s) =>
    match readBindings s with
    | some ((names, rest), [.mark '=', .name source, .mark ';']) =>
      let d : Destructuring := { names, rest, source }
      if d.IsLegal then some d else none
    | _ => none
  | _ => none

end Script

/-! ### Statements -/

open Script

section Statement

variable {names : List String}

/-- The name of the constant for the rest of the request. -/
def restName? (rest : Bool) : Option String := if rest then some "data" else none

/-- The tokens between a pattern and the end of its statement. -/
def patternEnd : List Token := [.mark '=', .name "request", .mark ';']

theorem readBindings_scan (hnames : ∀ name ∈ names, Naming.isIdentifier name = true) (rest : Bool) :
    ∃ s, scan ((Text.commaList (names ++ if rest then ["...data"] else [])).toList ++
        ' ' :: "\x7d = request;".toList) = some s ∧
      readBindings s = some ((names.map Naming.binding, restName? rest), patternEnd) := by
  have hend : scan (' ' :: "\x7d = request;".toList) = some (.mark '\x7d' :: patternEnd) := by
    decide +kernel
  induction names with
  | nil =>
    cases rest with
    | false => exact ⟨_, hend, rfl⟩
    | true =>
      have hdata : scan ("...data".toList ++ ' ' :: "\x7d = request;".toList) =
          some (.dots :: .name "data" :: .mark '\x7d' :: patternEnd) := by
        have hword : Naming.isIdentifierText "data".toList = true := by decide
        show scan ('.' :: '.' :: '.' :: ("data".toList ++ ' ' :: "\x7d = request;".toList)) = _
        rw [scan_dots, scan_name hword (by simp; decide), hend]
        rfl
      exact ⟨_, hdata, rfl⟩
  | cons name names ih =>
    obtain ⟨hname, hnames⟩ := List.forall_mem_cons.mp hnames
    rw [List.cons_append, Text.commaList_cons_append]
    -- the last name stands before the brace, any other before a comma
    by_cases hlast : (names ++ if rest then ["...data"] else []) = []
    · obtain ⟨rfl, hrest⟩ := List.append_eq_nil_iff.mp hlast
      have hrest : rest = false := by cases rest <;> simp_all
      subst hrest
      refine ⟨.name (Naming.binding name) :: .mark '\x7d' :: patternEnd, ?_, rfl⟩
      rw [if_pos hlast, scan_identifier hname (by simp; decide), hend]
      rfl
    · obtain ⟨s, hscan, hread⟩ := ih hnames
      refine ⟨.name (Naming.binding name) :: .mark ',' :: s, ?_, ?_⟩
      · rw [if_neg hlast, scan_identifier hname (by simp; decide), scan_mark rfl, scan_blank rfl,
          hscan]
        rfl
      · rw [readBindings, hread]
        rfl

/-- A statement that takes names out of the request is read as a declaration of the names that are
bound, if a script may hold that. -/
theorem readDestructuring_render (hnames : ∀ name ∈ names, Naming.isIdentifier name = true)
    (rest : Bool) : readDestructuring (Statement.destructure names rest).render =
      (some ⟨names.map Naming.binding, restName? rest, "request"⟩).filter fun d => d.IsLegal := by
  obtain ⟨s, hscan, hread⟩ := readBindings_scan hnames rest
  have hrender : (Statement.destructure names rest).render.toList =
      "const".toList ++ ' ' :: '\x7b' :: ' ' ::
        ((Text.commaList (names ++ if rest then ["...data"] else [])).toList ++
          ' ' :: "\x7d = request;".toList) := by
    show ("const \x7b " ++ Text.commaList _ ++ " \x7d = request;").toList = _
    rw [String.toList_append, String.toList_append, List.append_assoc]
    rfl
  have hconst : Naming.isIdentifierText "const".toList = true := by decide
  rw [readDestructuring, hrender, scan_name hconst (by simp; decide), scan_blank rfl, scan_mark rfl,
    scan_blank rfl, hscan]
  simp only [Option.map_some, String.ofList_toList, hread, patternEnd, Option.filter_some,
    decide_eq_true_eq]

/-- A script reads the statement as taking exactly the names if all of them may be bound, and none
is that of the rest beside it. -/
theorem destructure_read_iff (hnames : ∀ name ∈ names, Naming.isIdentifier name = true)
    (hnodup : names.Nodup) (rest : Bool) :
    readDestructuring (Statement.destructure names rest).render =
        some { names, rest := restName? rest, source := "request" } ↔
      (∀ name ∈ names, IsBindingName name) ∧ (rest = true → "data" ∉ names) := by
  -- the declaration has the names themselves if each binds all of itself
  have hself : Destructuring.mk (names.map Naming.binding) (restName? rest) "request" =
      ⟨names, restName? rest, "request"⟩ ↔
        ∀ name ∈ names, Naming.isIdentifierText name.toList = true := by
    have hmap : names.map Naming.binding = names ↔ ∀ name ∈ names, Naming.binding name = name := by
      conv_lhs => rhs; rw [← List.map_id names]
      exact List.map_inj_left
    rw [Destructuring.mk.injEq, and_iff_left ⟨rfl, rfl⟩, hmap]
    refine forall₂_congr fun name hname => ?_
    rw [Naming.isIdentifierText_iff, and_iff_right (hnames name hname)]
  have hdata : (names ++ (restName? rest).toList).Nodup ↔ (rest = true → "data" ∉ names) := by
    cases rest with
    | false => simp [restName?, hnodup]
    | true =>
      rw [List.nodup_append_comm]
      simp [restName?, hnodup]
  have hwords : (∀ name ∈ names ++ (restName? rest).toList, name ∉ unbindableWords) ↔
      ∀ name ∈ names, name ∉ unbindableWords := by
    have hrest : ∀ name ∈ (restName? rest).toList, name ∉ unbindableWords := by
      cases rest <;> decide
    rw [List.forall_mem_append, and_iff_left hrest]
  have hlegal : Destructuring.IsLegal ⟨names, restName? rest, "request"⟩ ↔
      (rest = true → "data" ∉ names) ∧ ∀ name ∈ names, name ∉ unbindableWords := by
    rw [Destructuring.IsLegal, Destructuring.bound, hdata, hwords]
    exact and_congr_right fun _ => and_iff_left (show "request" ∉ reservedWords by decide)
  rw [readDestructuring_render hnames, Option.filter_eq_some_iff, decide_eq_true_eq,
    Option.some_inj, hself, hlegal]
  simp only [IsBindingName, forall₂_and]
  tauto

end Statement

theorem SingleRequest.names_of_mem_statements {r : SingleRequest} {bodyForm : String}
    {taken : List String} {rest : Bool} (h : .destructure taken rest ∈ r.statements bodyForm) :
    taken = r.destructureNames := by
  simp only [SingleRequest.statements, List.mem_append] at h
  rcases h with ((h | h) | h) | h
  · split at h
    · exact absurd h List.not_mem_nil
    · exact (Statement.destructure.inj (List.mem_singleton.mp h)).1
  · split at h
    · exact absurd h List.not_mem_nil
    · cases List.mem_singleton.mp h
  · cases hquery : r.queryNames <;> simp [hquery] at h
  · cases hheader : r.headerNames <;> simp [hheader] at h

namespace Endpoint

variable {ctx : Context} {e : Endpoint} {exported generic : Bool} {via : Transport}
  {f : RequestFunction}

theorem taken_of_mem_statements (hv : via ≠ .fetch)
    (hs : e.operation.overrides.singleRequest = true)
    (hf : e.requestOver ctx exported generic via = .ok f) {taken : List String} {rest : Bool}
    (h : .destructure taken rest ∈ f.statements) : taken = f.takenNames := by
  obtain ⟨names, hn, ⟨-, -, hstatements⟩ | ⟨-, -, hstatements⟩⟩ := single_of_requestOver hv hs hf
  · rw [hstatements] at h
    rw [RequestFunction.takenNames, hstatements, SingleRequest.takenNames_statements]
    exact SingleRequest.names_of_mem_statements h
  · rw [hstatements, Operation.encodeStatements] at h
    split at h
    · exact absurd h List.not_mem_nil
    · cases List.mem_singleton.mp h

/-- The names that a function of a single request takes out of the request may all be bound if no
name of a parameter that passes for an identifier ends in a line feed or is a word that may not be
bound. A script reads its statement as taking exactly these names if all may be bound, and none is
that of the rest beside it. -/
theorem taken_bindable_iff (hv : via ≠ .fetch)
    (hs : e.operation.overrides.singleRequest = true)
    (hf : e.requestOver ctx exported generic via = .ok f) :
    ∃ names, ParameterNames.read ctx e = .ok names ∧
      ((∀ name ∈ f.takenNames, IsBindingName name) ↔
        (f.takesRequest = true → ∀ name ∈ e.parameterNames names, Naming.isIdentifier name = true →
          name.toList.getLast? ≠ some '\n' ∧ name ∉ unbindableWords)) ∧
      ∀ taken rest, .destructure taken rest ∈ f.statements → taken = f.takenNames ∧
        (readDestructuring (Statement.destructure taken rest).render =
            some { names := taken, rest := restName? rest, source := "request" } ↔
          (∀ name ∈ taken, IsBindingName name) ∧ (rest = true → "data" ∉ taken)) := by
  obtain ⟨names, hn, -, htaken, -⟩ := taken_of_requestOver hv hs hf
  have hlists := SingleRequest.listsFirst_destructureNames e names
  refine ⟨names, hn, ?_, ?_⟩
  · rw [htaken]
    cases f.takesRequest with
    | false => simp
    | true =>
      simp only [if_true, forall_const, hlists.mem_iff, and_imp]
      refine forall₃_congr fun name _ hname => ?_
      rw [IsBindingName, Naming.isIdentifierText_iff_getLast? hname]
  · intro taken rest h
    have heq := taken_of_mem_statements hv hs hf h
    have hlisted : taken = (SingleRequest.build e names).destructureNames ∨ taken = [] := by
      rw [heq, htaken]
      split
      · exact .inl rfl
      · exact .inr rfl
    refine ⟨heq, destructure_read_iff ?_ ?_ rest⟩
    · intro name hname
      rcases hlisted with rfl | rfl
      · exact ((hlists.mem_iff name).mp hname).2
      · exact absurd hname List.not_mem_nil
    · rcases hlisted with rfl | rfl
      · exact hlists.nodup
      · exact List.nodup_nil

end Endpoint

theorem read_contextWithQuery {name : String} (hname : name ≠ "") :
    ParameterNames.read (contextWithQuery name) listPetsOfRequest =
      .ok { query := [name], header := [], path := [] } := by
  have hparameters : ParameterNames.parameters (contextWithQuery name)
      listPetsOfRequest.pathRoute listPetsOfRequest.operation.verb.name =
        .ok [queryParameter name] := by
    show (resolve (contextWithQuery name) (.obj (queryParameter name))).map (·.schema) >>=
      (fun parameter => pure [parameter]) = Except.ok [queryParameter name]
    rw [resolve_of_get?_eq_none _ rfl]
    rfl
  have hquery : ParameterNames.nameIn? "query" (queryParameter name) = some (.str name) := by
    show (some (Json.str name)).filter (·.truthy) = _
    simp [Json.truthy, hname]
  have hheader : ParameterNames.nameIn? "header" (queryParameter name) = none := rfl
  have hcollect : ParameterNames.collect (contextWithQuery name) listPetsOfRequest =
      .ok { query := [.str name], header := [], path := [] } := by
    rw [ParameterNames.collect, hparameters]
    show Except.ok (ParameterNames.mk ([queryParameter name].filterMap _)
      ([queryParameter name].filterMap _) []) = _
    rw [List.filterMap_cons_none hheader, List.filterMap_cons_some hquery]
    rfl
  rw [ParameterNames.read, hcollect]
  rfl

/-- A query parameter called `class` is taken out of the request, in a statement that is no
declaration of it; one called `limit` is bound. -/
theorem taken_listPetsOfRequest_class :
    listPetsOfRequest.operation.overrides.singleRequest = true ∧
      (∃ f, listPetsOfRequest.requestOver (contextWithQuery "limit") false true .axios = .ok f ∧
        ∀ name ∈ f.takenNames, IsBindingName name) ∧
      ∃ f, listPetsOfRequest.requestOver (contextWithQuery "class") false true .axios = .ok f ∧
        ¬ ∀ name ∈ f.takenNames, IsBindingName name := by
  have hf (name : String) (hname : name ≠ "") :
      listPetsOfRequest.requestOver (contextWithQuery name) false true .axios = .ok _ :=
    (Endpoint.Sender.axiosSingle rfl (read_contextWithQuery hname)).requestOver_eq
  have hparameters (name : String) :
      listPetsOfRequest.parameterNames { query := [name], header := [], path := [] } = [name] := by
    have hplaceholders : listPetsOfRequest.placeholderNames = [] := by decide +kernel
    rw [Endpoint.parameterNames, hplaceholders]
    rfl
  refine ⟨rfl, ⟨_, hf "limit" (by decide), ?_⟩, _, hf "class" (by decide), ?_⟩
  · obtain ⟨names, hnames, hiff, -⟩ :=
      Endpoint.taken_bindable_iff (by decide) rfl (hf "limit" (by decide))
    obtain rfl : _ = names :=
      Except.ok.inj ((read_contextWithQuery (by decide)).symm.trans hnames)
    rw [hiff, hparameters, List.forall_mem_singleton]
    exact fun _ _ => by decide
  · obtain ⟨names, hnames, hiff, -⟩ :=
      Endpoint.taken_bindable_iff (by decide) rfl (hf "class" (by decide))
    obtain rfl : _ = names :=
      Except.ok.inj ((read_contextWithQuery (by decide)).symm.trans hnames)
    rw [hiff, hparameters, List.forall_mem_singleton]
    exact fun h => absurd (h rfl (by decide)).2 (by decide)

end RequestGen
