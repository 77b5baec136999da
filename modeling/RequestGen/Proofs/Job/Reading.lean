import RequestGen.Proofs.Job.Loading

/-! # What loading a job may come to

Loading reads files and changes none (`ReadsOnly`). A file that can be read is loaded, or there are
words for what is wrong with it, unless its reader breaks off at a value that nothing can hold
(`loading`); the document that a job names must also have a name that a file can have
(`Job.jobLoading`). -/

namespace RequestGen

/-- The program leaves the files as they are. -/
def ReadsOnly {α : Type} (x : StateM Workspace α) : Prop := ∀ w, (x.run w).2 = w

namespace ReadsOnly

variable {α β : Type} {x : StateM Workspace α} {f : α → StateM Workspace β}

theorem pure (a : α) : ReadsOnly (Pure.pure a) := fun _ => rfl

theorem bind (h : ReadsOnly x) (hf : ∀ a, ReadsOnly (f a)) : ReadsOnly (x >>= f) := by
  intro w
  rw [StateT.run_bind]
  show ((f (x.run w).1).run (x.run w).2).2 = w
  rw [h w]
  exact hf _ w

theorem run_bind (h : ReadsOnly x) (w : Workspace) :
    (x >>= f).run w = (f (x.run w).1).run w :=
  run_bind_of_eq (Prod.ext rfl (h w))

end ReadsOnly

variable {s : Surroundings}

theorem readText_run (path : Path) (w : Workspace) :
    ((Workspace.accessIn s).readText path).run w =
      ((w.read path).map (·.map fun text => String.ofList (Text.lineFeeds text.toList)), w) := rfl

theorem readsOnly_readText (path : Path) :
    ReadsOnly ((Workspace.accessIn s).readText path) :=
  fun _ => rfl

theorem readsOnly_loadWith {α : Type} (check : Json.Fields → Except LoadProblem α) (path : Path) :
    ReadsOnly (loadWith (Workspace.accessIn s) check path) := by
  refine (readsOnly_readText path).bind fun read => ?_
  split
  · exact .pure _
  · exact .pure _
  · split <;> exact .pure _

theorem Job.readsOnly_load (path : Path) : ReadsOnly (Job.load (Workspace.accessIn s) path) := by
  refine (readsOnly_loadWith _ path).bind fun loaded => ?_
  split
  · exact .pure _
  · refine ReadsOnly.bind (fun _ => rfl) fun directory => ?_
    split
    · exact .pure _
    · dsimp only
      split
      · exact .pure _
      · split
        · exact .pure _
        · refine (readsOnly_loadWith _ _).bind fun document => ?_
          split <;> exact .pure _

theorem Settings.readsOnly_loadFile : ReadsOnly (Settings.loadFile (Workspace.accessIn s)) := by
  refine (readsOnly_readText _).bind fun read => ?_
  split <;> exact .pure _

/-- The file at the path spells a value that nothing can hold. -/
def Workspace.HoldsTooMuch (s : Surroundings) (w : Workspace) (path : Path) : Prop :=
  ∃ text fault, w.read path = .ok (some text) ∧
    s.document (String.ofList (Text.lineFeeds text.toList)) = .breaks fault

/-- The file at the path has fields that pass the check. -/
def Workspace.Gives {α : Type} (s : Surroundings) (w : Workspace)
    (check : Json.Fields → Except LoadProblem α) (path : Path) (a : α) : Prop :=
  ∃ fields, w.Holds s path fields ∧ check fields = .ok a

/-- There are words for why nothing is loaded. -/
def LoadFault.IsRejection : LoadFault → Prop
  | .rejected _ => True
  | _ => False

section
variable {α : Type} {w : Workspace} {path : Path} {check : Json.Fields → Except LoadProblem α}
  {text : String} {a : α}

theorem loadWith_of_read (hread : w.read path = .ok (some text)) :
    (loadWith (Workspace.accessIn s) check path).run w =
      ((match s.document (String.ofList (Text.lineFeeds text.toList)) with
      | .breaks fault => .error (.unusable fault)
      | .invalid words => .error ((LoadProblem.invalidYaml words).at path)
      | .value value => (fieldsOf value >>= check).mapError (·.at path)), w) := by
  unfold loadWith
  rw [run_bind_of_eq (readText_run path w), hread]
  have hdocument : (Workspace.accessIn s).document = s.document := rfl
  dsimp only [Except.map, Option.map]
  rw [hdocument]
  cases s.document (String.ofList (Text.lineFeeds text.toList)) <;> rfl

theorem holdsTooMuch_iff (hread : w.read path = .ok (some text)) :
    w.HoldsTooMuch s path ↔
      ∃ fault, s.document (String.ofList (Text.lineFeeds text.toList)) = .breaks fault := by
  constructor
  · rintro ⟨other, fault, hother, h⟩
    obtain rfl := Option.some.inj (Except.ok.inj (hread.symm.trans hother))
    exact ⟨fault, h⟩
  · rintro ⟨fault, h⟩
    exact ⟨text, fault, hread, h⟩

theorem gives_iff (hread : w.read path = .ok (some text)) :
    w.Gives s check path a ↔
      ∃ value, s.document (String.ofList (Text.lineFeeds text.toList)) = .value value ∧
        (fieldsOf value >>= check) = .ok a := by
  constructor
  · rintro ⟨fields, ⟨other, value, hother, hdocument, hfields⟩, hcheck⟩
    obtain rfl := Option.some.inj (Except.ok.inj (hread.symm.trans hother))
    exact ⟨value, hdocument, by rw [hfields]; exact hcheck⟩
  · rintro ⟨value, hdocument, hcheck⟩
    obtain ⟨fields, hfields, hcheck⟩ := exists_of_bind_eq_ok hcheck
    exact ⟨fields, ⟨text, value, hread, hdocument, hfields⟩, hcheck⟩

theorem Workspace.Gives.not_holdsTooMuch (h : w.Gives s check path a) : ¬w.HoldsTooMuch s path := by
  obtain ⟨fields, ⟨text, value, hread, hdocument, -⟩, -⟩ := h
  rw [holdsTooMuch_iff hread]
  exact fun ⟨fault, hbreaks⟩ => nomatch hdocument.symm.trans hbreaks

/-- How a file is loaded. -/
inductive Loading (s : Surroundings) (w : Workspace) (check : Json.Fields → Except LoadProblem α)
    (path : Path) : Except LoadFault α → Prop where
  | tooMuch {fault : ValueFault} (h : w.HoldsTooMuch s path) :
      Loading s w check path (.error (.unusable fault))
  | rejected {error : LoadError} (h : ¬w.HoldsTooMuch s path)
      (hnone : ∀ a, ¬w.Gives s check path a) :
      Loading s w check path (.error (.rejected error))
  | ok {a : α} (h : w.Gives s check path a) : Loading s w check path (.ok a)

/-- A file that can be read is loaded, or there are words for why not, unless it spells too
much. -/
theorem loading (check : Json.Fields → Except LoadProblem α)
    (hread : ∀ fault, w.read path ≠ .error fault) :
    Loading s w check path ((loadWith (Workspace.accessIn s) check path).run w).1 := by
  cases hfile : w.read path with
  | error fault => exact absurd hfile (hread fault)
  | ok found =>
    cases found with
    | none =>
      unfold loadWith
      rw [run_bind_of_eq (readText_run path w), hfile]
      refine .rejected (fun ⟨_, _, h, _⟩ => ?_) fun _ ⟨_, ⟨_, _, h, _⟩, _⟩ => ?_
      · exact nomatch Except.ok.inj (hfile.symm.trans h)
      · exact nomatch Except.ok.inj (hfile.symm.trans h)
    | some text =>
      rw [loadWith_of_read hfile]
      dsimp only
      split
      · next fault hdocument => exact .tooMuch ((holdsTooMuch_iff hfile).mpr ⟨fault, hdocument⟩)
      · next words hdocument =>
        refine .rejected ?_ fun a => ?_
        · rw [holdsTooMuch_iff hfile]
          exact fun ⟨fault, h⟩ => nomatch hdocument.symm.trans h
        · rw [gives_iff hfile]
          exact fun ⟨value, h, _⟩ => nomatch hdocument.symm.trans h
      · next value hdocument =>
        cases hcheck : fieldsOf value >>= check with
        | ok a => exact .ok ((gives_iff hfile).mpr ⟨value, hdocument, hcheck⟩)
        | error problem =>
          refine .rejected ?_ fun a => ?_
          · rw [holdsTooMuch_iff hfile]
            exact fun ⟨fault, h⟩ => nomatch hdocument.symm.trans h
          · rw [gives_iff hfile]
            rintro ⟨other, h, ha⟩
            obtain rfl := Reading.value.inj (hdocument.symm.trans h)
            exact nomatch hcheck.symm.trans ha

theorem Workspace.Holds.unique {fields other : Json.Fields} (h : w.Holds s path fields)
    (h' : w.Holds s path other) : fields = other := by
  obtain ⟨text, value, hread, hdocument, hfields⟩ := h
  obtain ⟨_, _, hread', hdocument', hfields'⟩ := h'
  obtain rfl := Option.some.inj (Except.ok.inj (hread.symm.trans hread'))
  obtain rfl := Reading.value.inj (hdocument.symm.trans hdocument')
  exact Except.ok.inj (hfields.symm.trans hfields')

theorem Workspace.Gives.unique {b : α} (h : w.Gives s check path a)
    (h' : w.Gives s check path b) : a = b := by
  obtain ⟨fields, hfields, ha⟩ := h
  obtain ⟨other, hother, hb⟩ := h'
  obtain rfl := hfields.unique hother
  exact Except.ok.inj (ha.symm.trans hb)

end

namespace Job

variable {s : Surroundings} {w : Workspace} {path : Path} {job : Job} {l : LoadedJob}

/-- The job and its document can be read, if they are there. -/
structure Readable (s : Surroundings) (w : Workspace) (path : Path) : Prop where
  job : ∀ fault, w.read path ≠ .error fault
  document : ∀ job place key, w.Gives s checkJob path job →
    job.documentPlace path w.current = some (place, key) → ∀ fault, w.read place ≠ .error fault

/-- No file can have the name that the job gives for its document. -/
def Misnames (s : Surroundings) (job : Job) : Prop :=
  (Path.ofText (job.openapi.getD "")).hasNull = true ∨
    (s.misnames (job.openapi.getD "")).isSome = true

/-- A job cannot be loaded, and there may be no words for it. -/
inductive Unusable (s : Surroundings) (w : Workspace) (path : Path) : Prop where
  | job (h : w.HoldsTooMuch s path)
  | name {job : Job} {place : Path × String} (hjob : w.Gives s checkJob path job)
      (hplace : job.documentPlace path w.current = some place) (hname : job.Misnames s)
  | document {job : Job} {place : Path} {key : String} (hjob : w.Gives s checkJob path job)
      (hplace : job.documentPlace path w.current = some (place, key)) (h : w.HoldsTooMuch s place)

theorem not_unusable_of_not_gives (hmuch : ¬w.HoldsTooMuch s path)
    (hnone : ∀ job, ¬w.Gives s checkJob path job) : ¬Unusable s w path := by
  rintro (h | ⟨h, -, -⟩ | ⟨h, -, -⟩)
  · exact hmuch h
  · exact hnone _ h
  · exact hnone _ h

theorem not_unusable_of_gives (hjob : w.Gives s checkJob path job)
    (hname : (job.documentPlace path w.current).isSome = true → ¬job.Misnames s)
    (hdocument : ∀ place key, job.documentPlace path w.current = some (place, key) →
      ¬w.HoldsTooMuch s place) : ¬Unusable s w path := by
  rintro (h | ⟨hother, hplace, h⟩ | ⟨hother, hplace, h⟩)
  · exact hjob.not_holdsTooMuch h
  · obtain rfl := hjob.unique hother
    rw [hplace] at hname
    exact hname rfl h
  · obtain rfl := hjob.unique hother
    exact hdocument _ _ hplace h

/-- How a job is loaded. -/
inductive JobLoading (s : Surroundings) (w : Workspace) (path : Path) :
    Except LoadFault LoadedJob → Prop where
  | unusable {fault : LoadFault} (hfault : ¬fault.IsRejection) (h : Unusable s w path) :
      JobLoading s w path (.error fault)
  | rejected {error : LoadError} (h : ¬Unusable s w path) :
      JobLoading s w path (.error (.rejected error))
  | ok {l : LoadedJob} (h : ¬Unusable s w path)
      (hdocument : ∀ document ∈ l.document, checkDocument document.fields = .ok document.fields) :
      JobLoading s w path (.ok l)

theorem jobLoading (hread : Readable s w path) :
    JobLoading s w path ((load (Workspace.accessIn s) path).run w).1 := by
  have hjob := loading (s := s) checkJob hread.job
  unfold load
  rw [(readsOnly_loadWith checkJob path).run_bind]
  generalize ((loadWith (Workspace.accessIn s) checkJob path).run w).1 = result at hjob
  cases hjob with
  | tooMuch h => exact .unusable id (.job h)
  | rejected h hnone => exact .rejected (not_unusable_of_not_gives h hnone)
  | @ok job h =>
    have hdirectory : (Workspace.accessIn s).directory.run w = (w.current, w) := rfl
    have hmisnames : (Workspace.accessIn s).misnames = s.misnames := rfl
    dsimp only
    rw [run_bind_of_eq hdirectory, hmisnames]
    split
    · next hplace =>
      refine .ok (not_unusable_of_gives h ?_ ?_) nofun
      · rw [hplace]
        exact nofun
      · rw [hplace]
        exact nofun
    · next place key hplace =>
      split
      · next hnull => exact .unusable id (.name h hplace (.inl hnull))
      · next hnull =>
        split
        · next fault hfault =>
          exact .unusable id (.name h hplace (.inr (by rw [hfault]; rfl)))
        · next hnone =>
          have hname : ¬job.Misnames s := by
            rintro (hyes | hyes)
            · exact hnull hyes
            · rw [hnone] at hyes
              exact nomatch hyes
          have hdocument := loading (s := s) checkDocument (hread.document job place key h hplace)
          have husable (hsmall : ¬w.HoldsTooMuch s place) : ¬Unusable s w path := by
            refine not_unusable_of_gives h (fun _ => hname) fun other otherKey hother => ?_
            obtain ⟨rfl, -⟩ := Prod.mk.inj (Option.some.inj (hplace.symm.trans hother))
            exact hsmall
          unfold loadDocument
          rw [(readsOnly_loadWith checkDocument place).run_bind]
          generalize ((loadWith (Workspace.accessIn s) checkDocument place).run w).1 = result
            at hdocument
          cases hdocument with
          | tooMuch hmuch => exact .unusable id (.document h hplace hmuch)
          | rejected hsmall _ => exact .rejected (husable hsmall)
          | ok hgives =>
            refine .ok (husable hgives.not_holdsTooMuch) fun document hmem => ?_
            obtain rfl := Option.some.inj hmem
            obtain ⟨fields, -, hcheck⟩ := hgives
            obtain rfl := checkDocument_eq_ok hcheck
            exact hcheck

end Job

theorem paths_of_checkDocument {fields checked : Json.Fields}
    (h : checkDocument fields = .ok checked) :
    Json.Fields.get? fields "paths" = none ∨
      ∃ paths, Json.Fields.get? fields "paths" = some (.obj paths) := by
  unfold checkDocument at h
  split at h
  · exact nomatch h
  · split at h
    · next hpaths => exact .inl hpaths
    · next paths hpaths => exact .inr ⟨paths, hpaths⟩
    · exact nomatch h

theorem LoadedJob.exists_pathItem {l : LoadedJob}
    (hdocument : ∀ document ∈ l.document, checkDocument document.fields = .ok document.fields)
    (route : String) : ∃ item, ParameterNames.pathItem l.context route = .ok item := by
  have hfields : ∃ fields, (Json.Fields.get? l.context.specs l.context.specKey).getD (.obj []) =
      .obj fields ∧ (Json.Fields.get? fields "paths" = none ∨
        ∃ paths, Json.Fields.get? fields "paths" = some (.obj paths)) := by
    have hspecs : l.context.specs = l.specs := rfl
    rw [hspecs, LoadedJob.specs]
    cases h : l.document with
    | none => exact ⟨[], rfl, .inl rfl⟩
    | some document =>
      show ∃ fields, (Json.Fields.get? [(document.key, _)] l.context.specKey).getD _ = _ ∧ _
      by_cases hkey : l.context.specKey = document.key
      · rw [hkey, Json.Fields.get?, List.lookup_cons_self]
        exact ⟨document.fields, rfl, paths_of_checkDocument (hdocument document h)⟩
      · have hbeq : (l.context.specKey == document.key) = false := by simpa using hkey
        rw [Json.Fields.get?, List.lookup_cons, hbeq]
        exact ⟨[], rfl, .inl rfl⟩
  obtain ⟨fields, hdocument, hpaths⟩ := hfields
  have hempty : ∃ paths, ParameterNames.orEmpty ((Json.Fields.get? fields "paths").getD .null) =
      .obj paths := by
    rcases hpaths with hpaths | ⟨paths, hpaths⟩
    · exact ⟨[], by rw [hpaths]; rfl⟩
    · rw [hpaths, Option.getD_some, ParameterNames.orEmpty]
      split <;> exact ⟨_, rfl⟩
  obtain ⟨paths, hpaths⟩ := hempty
  refine ⟨ParameterNames.orEmpty ((Json.Fields.get? paths route).getD .null), ?_⟩
  unfold ParameterNames.pathItem
  rw [hdocument]
  show (ParameterNames.member (ParameterNames.orEmpty _) route >>= _) = _
  rw [hpaths]
  rfl

end RequestGen
