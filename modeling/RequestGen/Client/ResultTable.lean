import RequestGen.Naming.Words
import RequestGen.Operation.Basic

/-! # Result types

Each generated function gets an alias for the type of its result, `<Name>Result`. Its text depends
on how the group is closed, so while the functions are generated only what writes it is registered,
in a `ResultTable`. Closing the group takes this out again, each at most once. A table takes
whatever writes a declaration; those of the generated functions are `ResultAlias.ofOperation`. -/

namespace RequestGen

/-- What writes a declaration, given the title of the factory around the functions if there is
one. -/
structure ResultAlias where
  render : Option String → String

namespace ResultAlias

/-- The name of the alias. -/
def aliasName (operation : String) : String := s!"{Naming.pascal operation}Result"

/-- The type of the generated function's result, awaited. Inside a factory the function is a member
of what the factory returns. -/
def resolved (operation : String) : ResultAlias where
  render title :=
    let target :=
      if title.getD "" = "" then s!"typeof {operation}"
      else s!"ReturnType<typeof {title.getD default}>['" ++ operation ++ "']"
    s!"export type {aliasName operation} = NonNullable<Awaited<ReturnType<{target}>>>"

/-- The success type in an axios response. -/
def response (operation success : String) : ResultAlias where
  render _ := s!"export type {aliasName operation} = AxiosResponse<{success}>"

/-- The alias for an operation's result. -/
def ofOperation (op : Operation) : ResultAlias :=
  if op.mutator.isSome then resolved op.operationName
  else response op.operationName op.response.successType

end ResultAlias

/-- What writes result types, by operation name, each name at most once. -/
structure ResultTable where
  entries : List (String × ResultAlias) := []
  nodup : (entries.map Prod.fst).Nodup := by simp

namespace ResultTable

variable (t : ResultTable)

def empty : ResultTable := {}

/-- The table with all that is pending dropped. -/
def clear (_ : ResultTable) : ResultTable := empty

/-- What is registered for a name. -/
def get? (name : String) : Option ResultAlias := t.entries.lookup name

def contains (name : String) : Bool := (t.get? name).isSome

def size : Nat := t.entries.length

/-- The registered names, by code point. -/
def pending : List String :=
  (t.entries.map Prod.fst).mergeSort fun a b => decide (a ≤ b)

theorem nodup_filter (p : String × ResultAlias → Bool) :
    ((t.entries.filter p).map Prod.fst).Nodup :=
  t.nodup.sublist (List.filter_sublist.map _)

/-- The table without a name. -/
def erase (name : String) : ResultTable where
  entries := t.entries.filter (·.1 ≠ name)
  nodup := t.nodup_filter _

/-- The table with a name set. -/
def register (name : String) (result : ResultAlias) : ResultTable where
  entries := t.entries.filter (·.1 ≠ name) ++ [(name, result)]
  nodup := by
    rw [List.map_append, List.nodup_append]
    refine ⟨t.nodup_filter _, by simp, ?_⟩
    simp only [List.mem_map, List.mem_filter, List.map_cons, List.map_nil, List.mem_singleton]
    rintro _ ⟨entry, ⟨_, h⟩, rfl⟩ _ rfl
    simpa using h

/-- What is registered for a name, and the table without it. -/
def pop (name : String) : Option ResultAlias × ResultTable := (t.get? name, t.erase name)

/-- The declarations of the given names, where registered, and the table without them. -/
def render (title : Option String) : List String → ResultTable → List String × ResultTable
  | [], t => ([], t)
  | name :: names, t =>
    match t.pop name with
    | (none, t) => render title names t
    | (some result, t) =>
      let (declarations, t) := render title names t
      (result.render title :: declarations, t)

/-! ### What each step does to a look-up -/

theorem lookup_cons_of_ne {key name : String} (h : name ≠ key) (result : ResultAlias)
    (entries : List (String × ResultAlias)) :
    ((key, result) :: entries).lookup name = entries.lookup name := by
  rw [List.lookup_cons, beq_eq_false_iff_ne.mpr h]

theorem lookup_filter_ne (entries : List (String × ResultAlias)) (name other : String) :
    (entries.filter (·.1 ≠ name)).lookup other =
      if other = name then none else entries.lookup other := by
  induction entries with
  | nil => simp
  | cons entry entries ih =>
    obtain ⟨key, result⟩ := entry
    by_cases hk : key = name
    · subst hk
      rw [List.filter_cons_of_neg (by simp), ih]
      by_cases ho : other = key
      · simp [ho]
      · rw [lookup_cons_of_ne ho]
    · rw [List.filter_cons_of_pos (by simpa using hk)]
      by_cases ho : other = key
      · subst ho; simp [hk]
      · rw [lookup_cons_of_ne ho, lookup_cons_of_ne ho, ih]

@[simp] theorem get?_empty (name : String) : empty.get? name = none := rfl

@[simp] theorem get?_erase (name other : String) :
    (t.erase name).get? other = if other = name then none else t.get? other :=
  lookup_filter_ne t.entries name other

@[simp] theorem get?_register (name : String) (result : ResultAlias) (other : String) :
    (t.register name result).get? other =
      if other = name then some result else t.get? other := by
  show List.lookup other (t.entries.filter (·.1 ≠ name) ++ [(name, result)]) = _
  rw [List.lookup_append, lookup_filter_ne]
  by_cases h : other = name
  · simp [h]
  · rw [lookup_cons_of_ne h]; simp [h, get?]

theorem eq_empty_of_get? {t : ResultTable} (h : ∀ name, t.get? name = none) : t = empty := by
  obtain ⟨entries, nodup⟩ := t
  cases entries with
  | nil => rfl
  | cons entry entries => exact absurd (h entry.1) (by simp [get?])

end ResultTable

end RequestGen
