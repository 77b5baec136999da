import RequestGen.Proofs.Group.Implementations

/-! # Builds one after the other

The builds of a run share its context and its table of result types, and a build that breaks off
leaves in the table what it has registered. A `Run` is that shared state, and an `Event` what may
happen to it. No event touches the documents (`documents_after`), and a build starts from an empty
table; so whatever has happened before, a build comes to what it comes to in a new run
(`build_after`). What an operation is generated to depends on nothing but the operation and the
context (`generateAll_snd`), so two lists of operations built as one give what they give one by one,
and the first operation that cannot be generated decides how a build fails
(`build_after_history`). -/

namespace RequestGen

namespace Group

variable {style : Style} {ctx : Context} {endpoints : List Endpoint}

/-- Why the operations cannot be built: the first that cannot be generated. -/
def FirstFault (style : Style) (ctx : Context) (endpoints : List Endpoint) (fault : Fault) : Prop :=
  ∃ before e after, endpoints = before ++ e :: after ∧
    (∀ other ∈ before, ∃ code, style.implementation ctx other = .ok code) ∧
    style.implementation ctx e = .error fault

theorem firstFault_iff {fault : Fault} :
    FirstFault style ctx endpoints fault ↔
      endpoints.mapM (style.generated ctx) = .error fault := by
  have hok (e : Endpoint) : (∃ generated, style.generated ctx e = .ok generated) ↔
      ∃ code, style.implementation ctx e = .ok code := by
    constructor
    · rintro ⟨generated, h⟩
      exact ⟨_, (Style.generated_eq_ok_iff.mp h).1⟩
    · rintro ⟨code, h⟩
      exact ⟨⟨code, e.operation.modelImports⟩, Style.generated_eq_ok_iff.mpr ⟨h, rfl⟩⟩
  simp only [mapM_eq_error_iff, FirstFault, hok, Style.generated_eq_error_iff]

theorem rebuild_snd_of_error (t : ResultTable) (title : String) {fault : Fault}
    (h : endpoints.mapM (style.generated ctx) = .error fault) :
    (rebuild t style ctx title endpoints).2 = .error fault := by
  rw [← generateAll_snd style ctx endpoints t.clear] at h
  unfold rebuild
  rcases hg : generateAll style ctx endpoints t.clear with ⟨rest, result⟩
  rw [hg] at h
  cases h
  rfl

theorem exists_rebuild_snd_of_ok (t : ResultTable) (title : String) {generated : List Generated}
    (h : endpoints.mapM (style.generated ctx) = .ok generated) :
    ∃ g, (rebuild t style ctx title endpoints).2 = .ok g ∧
      g.implementations = generated.map (·.implementation) ∧
      g.imports = generated.flatMap (·.imports) ∧
      g.mutators = endpoints.flatMap (·.operation.mutators) := by
  rw [← generateAll_snd style ctx endpoints t.clear] at h
  unfold rebuild
  rcases hg : generateAll style ctx endpoints t.clear with ⟨rest, result⟩
  rw [hg] at h
  cases h
  refine ⟨_, rfl, rfl, rfl, ?_⟩
  show (endpoints.map (·.operation)).flatMap (·.mutators) = _
  rw [List.flatMap_map]

end Group

/-! ### Runs -/

/-- What the builds of a run share. -/
structure Run where
  ctx : Context
  table : ResultTable := .empty

namespace Run

/-- What may happen to a run. -/
inductive Event where
  | build (style : Style) (title : String) (endpoints : List Endpoint)
  | generate (style : Style) (e : Endpoint)
  | register (name : String) (result : ResultAlias)
  | pop (name : String)
  | render (title : Option String) (names : List String)
  | clear
  /-- The run gets another output configuration. -/
  | configure (output : OutputConfig)

variable (r : Run)

/-- What a build comes to. -/
def build (style : Style) (title : String) (endpoints : List Endpoint) : Except Fault Group :=
  (Group.rebuild r.table style r.ctx title endpoints).2

/-- The run after an event. -/
def step : Event → Run
  | .build style title endpoints =>
    { r with table := (Group.rebuild r.table style r.ctx title endpoints).1 }
  | .generate style e => { r with table := (style.generate r.ctx e r.table).1 }
  | .register name result => { r with table := r.table.register name result }
  | .pop name => { r with table := (r.table.pop name).2 }
  | .render title names => { r with table := (ResultTable.render title names r.table).2 }
  | .clear => { r with table := r.table.clear }
  | .configure output => { r with ctx := { r.ctx with output } }

/-- The run after some events. -/
def after (history : List Event) : Run := history.foldl step r

/-- A run over the same documents in which nothing has happened. -/
def restarted (output : OutputConfig) : Run where
  ctx := { r.ctx with output }

theorem documents_step (event : Event) :
    (r.step event).ctx.specKey = r.ctx.specKey ∧ (r.step event).ctx.specs = r.ctx.specs := by
  cases event <;> exact ⟨rfl, rfl⟩

/-- No event touches the documents of a run. -/
theorem documents_after (history : List Event) :
    (r.after history).ctx.specKey = r.ctx.specKey ∧
      (r.after history).ctx.specs = r.ctx.specs := by
  induction history generalizing r with
  | nil => exact ⟨rfl, rfl⟩
  | cons event history ih =>
    obtain ⟨hkey, hspecs⟩ := documents_step r event
    exact ⟨(ih (r.step event)).1.trans hkey, (ih (r.step event)).2.trans hspecs⟩

theorem build_after (history : List Event) (style : Style) (title : String)
    (endpoints : List Endpoint) :
    (r.after history).build style title endpoints =
      (r.restarted (r.after history).ctx.output).build style title endpoints := by
  obtain ⟨hkey, hspecs⟩ := documents_after r history
  have hctx : (r.after history).ctx = (r.restarted (r.after history).ctx.output).ctx := by
    show Context.mk (r.after history).ctx.specKey (r.after history).ctx.specs _ =
      Context.mk r.ctx.specKey r.ctx.specs _
    rw [hkey, hspecs]
  unfold build
  rw [hctx]
  -- what either table holds is dropped
  rfl

theorem build_eq_error_iff {style : Style} {title : String} {endpoints : List Endpoint}
    {fault : Fault} :
    r.build style title endpoints = .error fault ↔
      Group.FirstFault style r.ctx endpoints fault := by
  rw [Group.firstFault_iff]
  cases h : endpoints.mapM (style.generated r.ctx) with
  | error other =>
    rw [build, Group.rebuild_snd_of_error _ _ h, Except.error.injEq, Except.error.injEq]
  | ok generated =>
    obtain ⟨g, hg, -⟩ := Group.exists_rebuild_snd_of_ok r.table title h
    rw [build, hg]
    exact ⟨nofun, nofun⟩

theorem build_append (style : Style) (firstTitle secondTitle title : String)
    (first second : List Endpoint) :
    match r.build style firstTitle first, r.build style secondTitle second with
    | .ok one, .ok other => ∃ g, r.build style title (first ++ second) = .ok g ∧
        g.implementations = one.implementations ++ other.implementations ∧
        g.imports = one.imports ++ other.imports ∧ g.mutators = one.mutators ++ other.mutators
    | .ok _, .error fault => r.build style title (first ++ second) = .error fault
    | .error fault, _ => r.build style title (first ++ second) = .error fault := by
  have happend : (first ++ second).mapM (style.generated r.ctx) = _ := List.mapM_append
  cases hfirst : first.mapM (style.generated r.ctx) with
  | error fault =>
    rw [hfirst] at happend
    simp only [build, Group.rebuild_snd_of_error _ _ hfirst, Group.rebuild_snd_of_error _ _ happend]
  | ok generated =>
    obtain ⟨one, hone, himpl, himp, hmut⟩ :=
      Group.exists_rebuild_snd_of_ok r.table firstTitle hfirst
    cases hsecond : second.mapM (style.generated r.ctx) with
    | error fault =>
      rw [hfirst, hsecond] at happend
      simp only [build, hone, Group.rebuild_snd_of_error _ _ hsecond,
        Group.rebuild_snd_of_error _ _ happend]
    | ok others =>
      obtain ⟨other, hother, himpl', himp', hmut'⟩ :=
        Group.exists_rebuild_snd_of_ok r.table secondTitle hsecond
      rw [hfirst, hsecond] at happend
      obtain ⟨g, hg, hgimpl, hgimp, hgmut⟩ :=
        Group.exists_rebuild_snd_of_ok r.table title happend
      simp only [build, hone, hother]
      refine ⟨g, hg, ?_, ?_, ?_⟩
      · rw [hgimpl, himpl, himpl', List.map_append]
      · rw [hgimp, himp, himp', List.flatMap_append]
      · rw [hgmut, hmut, hmut', List.flatMap_append]

/-- Whatever has happened in a run, its builds come to what they come to in a new run over the same
documents with the same output configuration; a list of operations in two parts gives the functions,
imports and mutators of both, and no group exactly by the fault of the first operation that cannot
be generated. -/
theorem build_after_history (history : List Event) (style : Style) (title : String) :
    let now := r.after history
    (∀ endpoints, now.build style title endpoints =
      (r.restarted now.ctx.output).build style title endpoints) ∧
    (∀ (firstTitle secondTitle : String) (first second : List Endpoint),
      match now.build style firstTitle first, now.build style secondTitle second with
      | .ok one, .ok other => ∃ g, now.build style title (first ++ second) = .ok g ∧
          g.implementations = one.implementations ++ other.implementations ∧
          g.imports = one.imports ++ other.imports ∧ g.mutators = one.mutators ++ other.mutators
      | .ok _, .error fault => now.build style title (first ++ second) = .error fault
      | .error fault, _ => now.build style title (first ++ second) = .error fault) ∧
    ∀ (endpoints : List Endpoint) (fault : Fault),
      now.build style title endpoints = .error fault ↔
        Group.FirstFault style now.ctx endpoints fault :=
  ⟨r.build_after history style title,
    fun firstTitle secondTitle first second =>
      (r.after history).build_append style firstTitle secondTitle title first second,
    fun _ _ => (r.after history).build_eq_error_iff⟩

end Run

end RequestGen
