import Mathlib.Data.List.Forall2
import RequestGen.Group
import RequestGen.Proofs.Distinct

/-! # The result types that a group declares

A build registers a result for each operation and takes the results out again when it writes the
footer, in the order of the operations. A name may be carried by several operations: each of them
replaces what was registered (`get?_registerAll`), and the first of them takes it out
(`ResultTable.render_eq`). So the footer has one declaration for each name, in the place of its
first operation and about its last one, and nothing is left in the table; what was in it before the
build is dropped (`rebuild_footer`). -/

namespace RequestGen

namespace ResultTable

variable {t : ResultTable}

/-- The table without the given names. -/
def eraseAll (t : ResultTable) (names : List String) : ResultTable := names.foldl erase t

/-- The table with the results of the given operations. -/
def registerAll (t : ResultTable) (ops : List Operation) : ResultTable :=
  ops.foldl (fun t op => t.register op.operationName (.ofOperation op)) t

theorem get?_eraseAll (names : List String) (t : ResultTable) (other : String) :
    (t.eraseAll names).get? other = if other ∈ names then none else t.get? other := by
  induction names generalizing t with
  | nil => simp [eraseAll]
  | cons name names ih =>
    rw [eraseAll, List.foldl_cons, ← eraseAll, ih, get?_erase]
    by_cases hm : other ∈ names <;> by_cases ho : other = name <;> simp [hm, ho]

/-- A name has the result of the last operation that carries it. -/
theorem get?_registerAll (ops : List Operation) (t : ResultTable) (name : String) :
    (t.registerAll ops).get? name =
      ((ops.reverse.find? (·.operationName = name)).map ResultAlias.ofOperation).or
        (t.get? name) := by
  induction ops generalizing t with
  | nil => simp [registerAll]
  | cons op ops ih =>
    rw [registerAll, List.foldl_cons, ← registerAll, ih, get?_register, List.reverse_cons,
      List.find?_append]
    cases ops.reverse.find? (·.operationName = name) with
    | some last => simp
    | none =>
      by_cases h : op.operationName = name
      · simp [h]
      · simp [h, Ne.symm h]

theorem filterMap_get?_erase (name : String) (names : List String) :
    names.eraseDups.filterMap (t.erase name).get? =
      ((names.filter fun other => !other == name).eraseDups).filterMap t.get? := by
  rw [eraseDups_filter, List.filterMap_filter]
  congr 1
  funext other
  by_cases h : other = name <;> simp [h]

/-- Rendering takes each registered name out once, where it occurs first. -/
theorem render_eq (title : Option String) (names : List String) (t : ResultTable) :
    render title names t =
      ((names.eraseDups.filterMap t.get?).map (·.render title), t.eraseAll names) := by
  induction names generalizing t with
  | nil => rfl
  | cons name names ih =>
    rw [List.eraseDups_cons, List.filterMap_cons, ← filterMap_get?_erase]
    unfold render pop
    cases h : t.get? name with
    | none => simp only [ih]; rfl
    | some result => simp only [ih]; rfl

end ResultTable

namespace Operation

/-- Whether `op` is the last of the operations that carry its name, and the name is `name`. -/
def IsLastNamed (op : Operation) (ops : List Operation) (name : String) : Prop :=
  op.operationName = name ∧
    ∃ before after, ops = before ++ op :: after ∧ ∀ other ∈ after, other.operationName ≠ name

theorem isLastNamed_of_find? {ops : List Operation} {name : String} {op : Operation}
    (h : ops.reverse.find? (·.operationName = name) = some op) : op.IsLastNamed ops name := by
  obtain ⟨hname, before, after, hops, hbefore⟩ := List.find?_eq_some_iff_append.mp h
  refine ⟨of_decide_eq_true hname, after.reverse, before.reverse, ?_, fun other ho => ?_⟩
  · rw [← List.reverse_reverse ops, hops]; simp
  · simpa using hbefore other (List.mem_reverse.mp ho)

theorem exists_find?_of_mem_names {ops : List Operation} {name : String}
    (h : name ∈ ops.map (·.operationName)) :
    ∃ op, ops.reverse.find? (·.operationName = name) = some op := by
  obtain ⟨op, hop, rfl⟩ := List.mem_map.mp h
  exact Option.isSome_iff_exists.mp
    (List.find?_isSome.mpr ⟨op, List.mem_reverse.mpr hop, by simp⟩)

end Operation

namespace Group

variable {style : Style} {ctx : Context}

/-- The table with the results of all operations, of which the hook style registers none. -/
def registered (style : Style) (t : ResultTable) (ops : List Operation) : ResultTable :=
  if style = .swr then t else t.registerAll ops

theorem registered_cons (t : ResultTable) (op : Operation) (ops : List Operation) :
    registered style t (op :: ops) = registered style (style.register op t) ops := by
  cases style <;> rfl

theorem generateAll_spec (style : Style) (ctx : Context) (endpoints : List Endpoint)
    (t : ResultTable) :
    match generateAll style ctx endpoints t with
    | (_, .error fault) => ∃ e ∈ endpoints, style.implementation ctx e = .error fault
    | (left, .ok _) => left = registered style t (endpoints.map (·.operation)) := by
  induction endpoints generalizing t with
  | nil => cases style <;> rfl
  | cons e endpoints ih =>
    simp only [generateAll, Style.generate]
    cases hi : style.implementation ctx e with
    | error fault => exact ⟨e, List.mem_cons_self, hi⟩
    | ok code =>
      have h := ih (style.register e.operation t)
      dsimp only [Except.map]
      rcases hg : generateAll style ctx endpoints (style.register e.operation t) with ⟨left, result⟩
      rw [hg] at h
      cases result with
      | error fault =>
        obtain ⟨e', hmem, he'⟩ := h
        exact ⟨e', List.mem_cons_of_mem _ hmem, he'⟩
      | ok rest =>
        rw [List.map_cons, registered_cons]
        exact h

/-- The result type of an operation: with a mutator that of its function, which a factory of that
title has as a member, else the success type in a response. -/
inductive ResultType (op : Operation) : Option String → String → Prop
  | response {title : Option String} (h : op.mutator = none) :
      ResultType op title ("AxiosResponse<" ++ op.response.successType ++ ">")
  | function (h : op.mutator ≠ none) :
      ResultType op none ("NonNullable<Awaited<ReturnType<typeof " ++ op.operationName ++ ">>>")
  | member {title : String} (h : op.mutator ≠ none) :
      ResultType op (some title) ("NonNullable<Awaited<ReturnType<ReturnType<typeof " ++ title ++
        ">['" ++ op.operationName ++ "']>>>")

/-- The text declares the result type of an operation under the operation's name. -/
def DeclaresResult (op : Operation) (title : Option String) (declaration : String) : Prop :=
  ∃ type, ResultType op title type ∧
    declaration = "export type " ++ (Naming.pascal op.operationName ++ "Result") ++ " = " ++ type

theorem declaresResult_render (op : Operation) {title : Option String} (h : title ≠ some "") :
    DeclaresResult op title ((ResultAlias.ofOperation op).render title) := by
  unfold ResultAlias.ofOperation
  cases hm : op.mutator with
  | none =>
    refine ⟨_, .response hm, ?_⟩
    apply String.ext
    simp [ResultAlias.response, ResultAlias.aliasName, toString]
  | some m =>
    have hmutator : op.mutator ≠ none := by simp [hm]
    cases title with
    | none =>
      refine ⟨_, .function hmutator, ?_⟩
      apply String.ext
      simp [ResultAlias.resolved, ResultAlias.aliasName, toString]
    | some title =>
      have hne : title ≠ "" := fun hempty => h (congrArg some hempty)
      refine ⟨_, .member hmutator, ?_⟩
      apply String.ext
      simp [ResultAlias.resolved, ResultAlias.aliasName, toString, hne]

/-- The result types that a group of operations declares: for each name, in the order in which the
names first occur, that of the last operation of the name. -/
def DeclaresResults (title : Option String) (ops : List Operation) (declarations : List String) :
    Prop :=
  List.Forall₂
    (fun name declaration => ∃ op, op.IsLastNamed ops name ∧
      DeclaresResult op title declaration)
    (ops.map (·.operationName)).eraseDups declarations

theorem declaresResults_render {title : Option String} (htitle : title ≠ some "")
    (ops : List Operation) :
    DeclaresResults title ops
      (ResultTable.render title (ops.map (·.operationName))
        (ResultTable.empty.registerAll ops)).1 := by
  rw [ResultTable.render_eq]
  have h : ∀ names : List String, (∀ name ∈ names, name ∈ ops.map (·.operationName)) →
      List.Forall₂ (fun name declaration => ∃ op : Operation, op.IsLastNamed ops name ∧
          DeclaresResult op title declaration) names
        ((names.filterMap (ResultTable.empty.registerAll ops).get?).map (·.render title)) := by
    intro names hnames
    induction names with
    | nil => exact .nil
    | cons name names ih =>
      obtain ⟨op, hop⟩ := Operation.exists_find?_of_mem_names (hnames name List.mem_cons_self)
      have hget : (ResultTable.empty.registerAll ops).get? name = some (.ofOperation op) := by
        rw [ResultTable.get?_registerAll, hop]; rfl
      rw [List.filterMap_cons, hget]
      exact .cons ⟨op, Operation.isLastNamed_of_find? hop, declaresResult_render op htitle⟩
        (ih fun other ho => hnames other (List.mem_cons_of_mem _ ho))
  exact h _ fun name hname => List.mem_eraseDups.mp hname

theorem render_registerAll_snd (title : Option String) (ops : List Operation) :
    (ResultTable.render title (ops.map (·.operationName))
      (ResultTable.empty.registerAll ops)).2 = .empty := by
  rw [ResultTable.render_eq]
  refine ResultTable.eq_empty_of_get? fun name => ?_
  rw [ResultTable.get?_eraseAll]
  split
  · rfl
  · next hname =>
    rw [ResultTable.get?_registerAll]
    cases hf : ops.reverse.find? (·.operationName = name) with
    | none => rfl
    | some op =>
      obtain ⟨rfl, before, after, rfl, -⟩ := Operation.isLastNamed_of_find? hf
      exact absurd (by simp) hname

theorem factoryTitle_ne_empty (title : String) : some (factoryTitle title) ≠ some "" := by
  intro h
  have hlength := congrArg String.length (Option.some.inj h)
  simp [factoryTitle, toString] at hlength

/-- What closes the functions: in the factory style the object of all of them, each under its name,
and the type that compilers lack. -/
def closing (style : Style) (ctx : Context) (ops : List Operation) : String :=
  (if style = .factory then
    "  return \x7b " ++ String.intercalate ", " (ops.map (·.operationName)) ++ " \x7d;\n\x7d;\n"
  else "") ++
    if ops.any (·.mutator.isSome) && !ctx.output.hasAwaitedType then awaitedTypes else ""

theorem footer_of_rebuild {t left : ResultTable} {title : String} {endpoints : List Endpoint}
    {g : Group} (hg : rebuild t style ctx title endpoints = (left, .ok g)) :
    if style = .swr then g.footer = ""
    else ∃ declarations,
      g.footer = closing style ctx (endpoints.map (·.operation)) ++
        String.join (declarations.map fun d => "\n" ++ d ++ "\n") ∧
      DeclaresResults (if style = .factory then some (factoryTitle title) else none)
        (endpoints.map (·.operation)) declarations := by
  have h := generateAll_spec style ctx endpoints t.clear
  unfold rebuild at hg
  rcases hall : generateAll style ctx endpoints t.clear with ⟨table, result⟩
  rw [hall] at h hg
  cases result with
  | error fault => exact nomatch hg
  | ok generated =>
    subst h
    obtain ⟨-, hgroup⟩ := Prod.mk.inj hg
    obtain rfl := Except.ok.inj hgroup
    cases style with
    | swr => rfl
    | factory => exact ⟨_, rfl, declaresResults_render (factoryTitle_ne_empty title) _⟩
    | functions => exact ⟨_, rfl, declaresResults_render (Option.some_ne_none "").symm _⟩

theorem table_of_rebuild {t left : ResultTable} {title : String} {endpoints : List Endpoint}
    {g : Group} (hg : rebuild t style ctx title endpoints = (left, .ok g)) : left = .empty := by
  have h := generateAll_spec style ctx endpoints t.clear
  unfold rebuild at hg
  rcases hall : generateAll style ctx endpoints t.clear with ⟨table, result⟩
  rw [hall] at h hg
  cases result with
  | error fault => exact nomatch hg
  | ok generated =>
    subst h
    obtain ⟨rfl, -⟩ := Prod.mk.inj hg
    cases style with
    | swr => rfl
    | factory => exact render_registerAll_snd _ _
    | functions => exact render_registerAll_snd _ _

/-- Whatever its table holds, a build that can generate all operations leaves the table empty and
its footer declares one result type for each name of an operation, on lines behind what closes the
functions; the hook style declares none. -/
theorem rebuild_footer (t : ResultTable) (style : Style) (ctx : Context) (title : String)
    (endpoints : List Endpoint) :
    match rebuild t style ctx title endpoints with
    | (_, .error fault) => ∃ e ∈ endpoints, style.implementation ctx e = .error fault
    | (left, .ok group) => left = .empty ∧
        if style = .swr then group.footer = ""
        else ∃ declarations,
          group.footer = closing style ctx (endpoints.map (·.operation)) ++
            String.join (declarations.map fun d => "\n" ++ d ++ "\n") ∧
          DeclaresResults (if style = .factory then some (factoryTitle title) else none)
            (endpoints.map (·.operation)) declarations := by
  rcases hg : rebuild t style ctx title endpoints with ⟨left, result⟩
  cases result with
  | ok g => exact ⟨table_of_rebuild hg, footer_of_rebuild hg⟩
  | error fault =>
    have h := generateAll_spec style ctx endpoints t.clear
    unfold rebuild at hg
    rcases hall : generateAll style ctx endpoints t.clear with ⟨table, result⟩
    rw [hall] at h hg
    cases result with
    | error other =>
      obtain ⟨-, hfault⟩ := Prod.mk.inj hg
      obtain rfl := Except.error.inj hfault
      exact h
    | ok generated => exact nomatch hg

end Group

end RequestGen
