import RequestGen.Command.Run
import RequestGen.Proofs.Group.Implementations
import RequestGen.Proofs.Record.Dumps

/-! # Jobs that are loaded

What a job file says is kept, whatever reads the file (`load_keeps`): the job is read of the normal
form of the file's fields, each of its operations of the normal form of an entry, and no field is
lost on the way, since what is written of a record is what was read (`Shape.dump_of_check`). The
document that a job names is found again by the key that it is loaded under. For that the key must
not be empty: where the job gives none, the name of the document's file is one, because a path that
leads to a file has a last step, and each step of the current directory is a name. -/

namespace RequestGen

open Shape

theorem run_bind_of_eq {σ α β : Type} {x : StateM σ α} {f : α → StateM σ β} {s s' : σ} {a : α}
    (h : x.run s = (a, s')) : (x >>= f).run s = (f a).run s' := by
  rw [StateT.run_bind, h]
  rfl

/-! ### Files -/

/-- The text of a file with its line ends as line feeds is read as those fields. -/
def Workspace.Holds (s : Surroundings) (w : Workspace) (path : Path) (fields : Json.Fields) :
    Prop :=
  ∃ text value, w.read path = .ok (some text) ∧
    s.document (String.ofList (Text.lineFeeds text.toList)) = .value value ∧
    fieldsOf value = .ok fields

variable {s : Surroundings} {w w' : Workspace}

/-- What is loaded of a file is what the check makes of its fields, and the files stay as they
are. -/
theorem loadWith_run {α : Type} {check : Json.Fields → Except LoadProblem α} {path : Path} {a : α}
    (h : (loadWith (Workspace.accessIn s) check path).run w = (.ok a, w')) :
    w' = w ∧ ∃ fields, w.Holds s path fields ∧ check fields = .ok a := by
  have hread : ((Workspace.accessIn s).readText path).run w =
      ((w.read path).map (·.map fun text => String.ofList (Text.lineFeeds text.toList)), w) := rfl
  unfold loadWith at h
  rw [run_bind_of_eq hread] at h
  cases hfile : w.read path with
  | error fault =>
    rw [hfile] at h
    exact nomatch h
  | ok found =>
    rw [hfile] at h
    cases found with
    | none => exact nomatch h
    | some text =>
      dsimp only [Except.map, Option.map] at h
      split at h
      · exact nomatch h
      · exact nomatch h
      · next value hvalue =>
        obtain ⟨hresult, hsame⟩ := Prod.mk.inj h
        obtain ⟨fields, hfields, hcheck⟩ :=
          exists_of_bind_eq_ok (eq_ok_of_mapError_eq_ok hresult)
        exact ⟨hsame.symm, fields, ⟨text, value, hfile, hvalue, hfields⟩, hcheck⟩

theorem checkJob_eq_ok {fields : Json.Fields} {job : Job} (h : checkJob fields = .ok job) :
    ∃ n, Job.shape.check (.obj fields) = .ok n ∧ job = Job.ofJson (.obj fields) n := by
  obtain ⟨n, hcheck, hjob⟩ := exists_of_map_eq_ok (eq_ok_of_mapError_eq_ok h)
  exact ⟨n, hcheck, hjob.symm⟩

theorem checkDocument_eq_ok {fields checked : Json.Fields}
    (h : checkDocument fields = .ok checked) : checked = fields := by
  unfold checkDocument at h
  split at h
  · exact nomatch h
  · split at h
    · exact (Except.ok.inj h).symm
    · exact (Except.ok.inj h).symm
    · exact nomatch h

namespace Path

variable {p : Path} {directory : List String} {step : String}

theorem mem_of_mem_stepsFrom (h : step ∈ p.stepsFrom directory) :
    step ∈ p.steps ∨ step ∈ directory := by
  have hfold : ∀ steps start : List String, step ∈ steps.foldl
      (fun steps step => if step = up then steps.dropLast else steps ++ [step]) start →
        step ∈ steps ∨ step ∈ start := by
    intro steps
    -- going up only drops steps
    induction steps with
    | nil => exact fun start h => .inr h
    | cons first steps ih =>
      intro start h
      rcases ih _ h with h | h
      · exact .inl (List.mem_cons_of_mem _ h)
      · dsimp only at h
        split at h
        · exact .inr (List.dropLast_subset _ h)
        · rcases List.mem_append.mp h with h | h
          · exact .inr h
          · exact .inl (List.mem_cons.mpr (.inl (List.mem_singleton.mp h)))
  rcases hfold _ _ h with h | h
  · exact .inl h
  · split at h
    · exact absurd h List.not_mem_nil
    · exact .inr h

theorem empty_notMem_ofText (s : String) : "" ∉ (ofText s).steps := by
  intro h
  have hkept := (List.mem_filter.mp h).2
  simp at hkept

theorem empty_notMem_join {text openapi : String} :
    "" ∉ ((ofText text).parent.join (ofText openapi)).steps := by
  unfold join
  split
  · exact empty_notMem_ofText openapi
  · rw [List.mem_append, not_or]
    exact ⟨fun h => empty_notMem_ofText text (List.dropLast_subset _ h),
      empty_notMem_ofText openapi⟩

theorem stemOf_ne_nil {name : List Char} (h : name ≠ []) : stemOf name ≠ [] := by
  unfold stemOf
  dsimp only
  split
  · exact h
  · next hstem =>
    intro hnil
    rw [hnil] at hstem
    simp at hstem

theorem steps_ne_nil_of_read {w : Workspace} {text : String} (habsolute : p.isAbsolute = true)
    (h : w.read p = .ok (some text)) : p.steps ≠ [] := by
  intro hnil
  unfold Workspace.read Workspace.walk at h
  rw [hnil, List.foldl_nil, if_pos habsolute] at h
  split at h
  · exact nomatch h
  · split at h
    · next hfile =>
      split at hfile <;> exact nomatch hfile
    · exact nomatch h
    · exact nomatch h
    · exact nomatch h

end Path

theorem Endpoint.routes_of_check {entry m : Json} (h : shape.check entry = .ok m) :
    entry.field "route" = .str (ofJson m).route ∧
      entry.field "path_route" = .str (ofJson m).pathRoute := by
  obtain ⟨input, -, rfl, -⟩ := check_record_eq_ok_iff.mp h
  have hroute {key : String} (hf : Field.mandatory key .text ∈ Operation.recordFields ++
        [Field.mandatory "route" .text, Field.mandatory "path_route" .text]) :
      Json.field (.obj input) key = .str (m.textAt key) := by
    rcases (regular.comesTo h hf).2 with ⟨v, hgiven, hcheck⟩ | ⟨-, hnone⟩
    · obtain ⟨s, rfl, hs⟩ := check_text_eq_ok_iff.mp hcheck
      dsimp only [Field.mandatory] at hgiven hs
      rw [given_none] at hgiven
      rw [Json.field, hgiven, Json.textAt, hs]
      rfl
    · exact absurd hnone.symm (Option.some_ne_none _)
  exact ⟨hroute (by simp), hroute (by simp)⟩

namespace Job

variable {j : Job} {path : Path} {l : LoadedJob}

theorem firstText_cons (first : Option String) (rest : List (Option String)) (fallback : String) :
    firstText (first :: rest) fallback =
      if first.getD "" = "" then firstText rest fallback else first.getD "" := by
  unfold firstText
  cases first with
  | none => rfl
  | some s => by_cases hs : s = "" <;> simp [hs]

theorem firstText_stem (own : Option String) {stem : String} (hstem : stem ≠ "") :
    firstText [own, some (firstText [own] stem)] "default" = firstText [own] stem := by
  have hnil (fallback : String) : firstText [] fallback = fallback := rfl
  simp only [firstText_cons, hnil, Option.getD_some]
  split <;> simp [*]

theorem documentPlace_of_openapi {openapi : String} {directory : List String}
    (h : j.openapi = some openapi) (hne : openapi ≠ "") :
    j.documentPlace path directory =
      some ((path.parent.join (.ofText openapi)).resolve directory,
        firstText [j.specKey] ((path.parent.join (.ofText openapi)).resolve directory).stem) := by
  unfold documentPlace
  rw [h]
  exact if_neg hne

/-- What the place of a document says about a loaded job. -/
def LoadedFrom (s : Surroundings) (w : Workspace) (l : LoadedJob) : Option (Path × String) → Prop
  | none => l.document = none
  | some (place, key) => ∃ fields, w.Holds s place fields ∧ l.document = some ⟨place, key, fields⟩

theorem load_run (h : (load (Workspace.accessIn s) path).run w = (.ok l, w')) :
    w' = w ∧ (∃ fields, w.Holds s path fields ∧ checkJob fields = .ok l.job) ∧
      LoadedFrom s w l (l.job.documentPlace path w.current) := by
  unfold load at h
  rcases hjob : (loadWith (Workspace.accessIn s) checkJob path).run w with ⟨result, after⟩
  rw [run_bind_of_eq hjob] at h
  cases result with
  | error fault => exact nomatch h
  | ok job =>
    obtain ⟨rfl, hfile⟩ := loadWith_run hjob
    have hdirectory : (Workspace.accessIn s).directory.run after = (after.current, after) := rfl
    dsimp only at h
    rw [run_bind_of_eq hdirectory] at h
    split at h
    · next hplace =>
      obtain ⟨hl, rfl⟩ := Prod.mk.inj h
      obtain rfl := Except.ok.inj hl
      refine ⟨rfl, hfile, ?_⟩
      dsimp only
      rw [hplace]
      rfl
    · next place key hplace =>
      split at h
      · exact nomatch h
      · split at h
        · exact nomatch h
        · rcases hdocument : (loadDocument (Workspace.accessIn s) place).run after
            with ⟨result, rest⟩
          rw [run_bind_of_eq hdocument] at h
          cases result with
          | error fault => exact nomatch h
          | ok fields =>
            obtain ⟨rfl, given, hholds, hcheck⟩ := loadWith_run hdocument
            obtain rfl := checkDocument_eq_ok hcheck
            obtain ⟨hl, rfl⟩ := Prod.mk.inj h
            obtain rfl := Except.ok.inj hl
            refine ⟨rfl, hfile, ?_⟩
            dsimp only
            rw [hplace]
            exact ⟨_, hholds, rfl⟩

theorem forall₂_operations {raw n : Json} {fields : Json.Fields}
    (h : shape.check (.obj fields) = .ok n) :
    List.Forall₂ (fun entry e => ∃ m, Endpoint.shape.check entry = .ok m ∧ e = Endpoint.ofJson m)
      (Json.field (.obj fields) "operations").toItems (ofJson raw n).operations := by
  have hfield := regular.comesTo h (f := Field.list "operations" Endpoint.shape) (by simp)
  have hoperations : (ofJson raw n).operations =
      (n.field "operations").toItems.map Endpoint.ofJson := rfl
  rw [hoperations, List.forall₂_map_right_iff]
  have hread : (Json.field (.obj fields) "operations") =
      (given fields "operations" none).getD .null := by
    rw [given_none]
    rfl
  rw [hread]
  rcases hfield.2 with ⟨v, hgiven, hcheck⟩ | ⟨hnone, hfallback⟩
  · obtain ⟨items, normal, rfl, hnormal, hitems⟩ := check_list_eq_ok_iff.mp hcheck
    dsimp only [Field.list] at hgiven hnormal
    rw [hgiven, hnormal]
    exact hitems.imp fun entry m hentry => ⟨m, hentry, rfl⟩
  · dsimp only [Field.list] at hnone hfallback
    rw [hnone, ← Option.some.inj hfallback]
    exact .nil

theorem stem_ne_empty {text openapi : String} {fields : Json.Fields}
    (hcurrent : "" ∉ w.current)
    (h : w.Holds s (((Path.ofText text).parent.join (.ofText openapi)).resolve w.current) fields) :
    (((Path.ofText text).parent.join (.ofText openapi)).resolve w.current).stem ≠ "" := by
  set place := ((Path.ofText text).parent.join (.ofText openapi)).resolve w.current
  obtain ⟨content, value, hread, -⟩ := h
  have hsteps : place.steps ≠ [] :=
    Path.steps_ne_nil_of_read (Path.resolve_isAbsolute _ _) hread
  have hlast : place.name ∈ place.steps := by
    rw [Path.name, List.getLast?_eq_some_getLast hsteps, Option.getD_some]
    exact List.getLast_mem hsteps
  have hname : place.name ≠ "" := by
    intro hempty
    rw [hempty] at hlast
    rcases Path.mem_of_mem_stepsFrom hlast with hstep | hstep
    · exact Path.empty_notMem_join hstep
    · exact hcurrent hstep
  intro hstem
  have hnil : Path.stemOf place.name.toList = [] := by
    rw [← String.toList_ofList (l := Path.stemOf _)]
    exact congrArg String.toList hstem
  exact Path.stemOf_ne_nil (mt String.toList_eq_nil_iff.mp hname) hnil

theorem forall₂_generate {style : Style} {text : String} (h : Command.generate style l = .ok text) :
    ∃ g : Group, text = g.render ∧ List.Forall₂
      (fun e code => style.implementation l.context e = .ok code) l.job.operations
        g.implementations := by
  obtain ⟨g, hg, rfl⟩ := exists_of_map_eq_ok h
  exact ⟨g, rfl, Group.forall₂_implementations (Prod.ext rfl hg)⟩

/-- A job with one operation, and the document that it names. -/
def petsFiles : Workspace where
  current := ["home"]
  entries :=
    [(["home", "job.yaml"], .file <| "title: Pets\nopenapi: pets.yaml\noperations:\n" ++
        "- \x7bverb: GET, operation_name: list, route: /, path_route: /\x7d\n"),
      (["home", "pets.yaml"], .file "openapi: 3.0.0\n")]

end Job

end RequestGen
