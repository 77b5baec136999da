import RequestGen.Proofs.Reference.Marks

/-! # What references resolve to

A run walks along the chain of references that starts at its value, as long as the marks of the
locations differ: it ends with the object at the end of the chain (`Runs.exists_chain`,
`Chain.exists_runs`) or at a location with a mark that it has met before
(`Runs.exists_mark_again`, `Chain.exists_runs_cyclic`). So the object that `resolve` gives is the
end of a chain, and its imports are those of the locations on the way (`resolve_follows_chain`). -/

namespace RequestGen

namespace Reference

/-! ### Runs and chains -/

/-- The locations have marks that differ from each other and from those in `seen`. -/
def MarksApart (seen : List (String × String)) (locations : List Location) : Prop :=
  (locations.map Location.mark).Nodup ∧ ∀ l ∈ locations, l.mark ∉ seen

theorem marksApart_cons {seen : List (String × String)} {l : Location} {locations : List Location} :
    MarksApart seen (l :: locations) ↔ l.mark ∉ seen ∧ MarksApart (l.mark :: seen) locations := by
  constructor
  · rintro ⟨hnodup, hseen⟩
    obtain ⟨hl, hnodup⟩ := List.nodup_cons.mp hnodup
    refine ⟨hseen l (by simp), hnodup, fun other ho hmem => ?_⟩
    rcases List.mem_cons.mp hmem with heq | hmem
    · exact hl (heq ▸ List.mem_map_of_mem ho)
    · exact hseen other (by simp [ho]) hmem
  · rintro ⟨hseen, hnodup, hall⟩
    refine ⟨List.nodup_cons.mpr ⟨fun hmem => ?_, hnodup⟩, fun other ho => ?_⟩
    · obtain ⟨other, ho, heq⟩ := List.mem_map.mp hmem
      exact hall other ho (heq ▸ List.mem_cons_self)
    · rcases List.mem_cons.mp ho with rfl | ho
      · exact hseen
      · exact fun hmem => hall other ho (List.mem_cons_of_mem _ hmem)

section
variable {specs : Json.Fields} {s : Visit} {resolved : Resolved}

theorem Visit.outcome_eq_ok_iff :
    s.outcome = .ok resolved ↔ s.value = .obj resolved.schema ∧ resolved.imports = s.imports := by
  unfold Visit.outcome
  cases s.value with
  | obj fields =>
    refine ⟨fun h => ?_, fun ⟨hv, hi⟩ => ?_⟩
    · obtain rfl := Except.ok.inj h
      exact ⟨rfl, rfl⟩
    · obtain rfl := Json.obj.inj hv
      rw [← hi]
  | _ => exact ⟨nofun, nofun⟩

theorem Visit.outcome_ne_cyclic {ref : String} :
    s.outcome ≠ .error (.reference (.cyclic ref)) := by
  unfold Visit.outcome
  split <;> exact nofun

theorem Runs.exists_chain {n : Nat} (h : Runs specs s n (.ok resolved)) :
    ∃ locations key, Chain specs s.toStop locations ⟨key, .obj resolved.schema⟩ ∧
      Json.Fields.get? resolved.schema "$ref" = none ∧ MarksApart s.seen locations ∧
      resolved.imports = s.imports ++ locations.filterMap Location.import? := by
  generalize hr : Except.ok resolved = outcome at h
  induction h with
  | @done s h =>
    obtain ⟨hvalue, himports⟩ := Visit.outcome_eq_ok_iff.mp hr.symm
    have hend := Visit.pass_eq_none_iff.mp h
    rw [hvalue] at hend
    refine ⟨[], s.specKey, ?_, hend, ⟨List.nodup_nil, nofun⟩, by simp [himports]⟩
    rw [← hvalue]
    exact .refl s.toStop
  | fails h => exact nomatch hr
  | passes h _ ih =>
    obtain ⟨l, value, hn, hseen, hv, rfl⟩ := Visit.exists_of_pass_eq_ok h
    obtain ⟨locations, key, hchain, hend, hmarks, himports⟩ := ih hr
    refine ⟨l :: locations, key, .step hn hv hchain, hend, marksApart_cons.mpr ⟨hseen, hmarks⟩, ?_⟩
    rw [himports, Visit.arrive, List.append_assoc, List.filterMap_cons]
    cases l.import? <;> rfl

theorem Chain.exists_runs {start stop : Stop} {locations : List Location} {fields : Json.Fields}
    (h : Chain specs start locations stop) (hstop : stop.value = .obj fields)
    (hend : Json.Fields.get? fields "$ref" = none) (hs : s.toStop = start)
    (hmarks : MarksApart s.seen locations) :
    ∃ n imports, Runs specs s n (.ok ⟨fields, imports⟩) := by
  induction h generalizing s with
  | refl =>
    subst hs
    have hpass : s.pass specs = none := by
      refine Visit.pass_eq_none_iff.mpr ?_
      rw [hstop]
      exact hend
    have houtcome : s.outcome = .ok ⟨fields, s.imports⟩ := Visit.outcome_eq_ok_iff.mpr ⟨hstop, rfl⟩
    exact ⟨0, s.imports, houtcome ▸ .done hpass⟩
  | @step _ _ l value _ hn hv _ ih =>
    subst hs
    obtain ⟨hseen, hmarks⟩ := marksApart_cons.mp hmarks
    obtain ⟨n, imports, hruns⟩ := ih hstop (s := s.arrive l value) rfl hmarks
    exact ⟨n + 1, imports, .passes (Visit.pass_of_value? hn hseen hv) hruns⟩

theorem Runs.exists_mark_again {n : Nat} {ref : String}
    (h : Runs specs s n (.error (.reference (.cyclic ref)))) :
    ∃ locations t l, Chain specs s.toStop locations t ∧ Names specs t l ∧
      (l.mark ∈ s.seen ∨ l.mark ∈ locations.map Location.mark) := by
  generalize hr : Except.error _ = outcome at h
  induction h with
  | done h => exact absurd hr.symm Visit.outcome_ne_cyclic
  | @fails s e h =>
    obtain rfl := Except.error.inj hr
    obtain ⟨l, hn, hseen⟩ := Visit.exists_of_pass_eq_cyclic h
    exact ⟨[], s.toStop, l, .refl _, hn, .inl hseen⟩
  | passes h _ ih =>
    obtain ⟨l, value, hn, hseen, hv, rfl⟩ := Visit.exists_of_pass_eq_ok h
    obtain ⟨locations, t, again, hchain, hagain, hmark⟩ := ih hr
    refine ⟨l :: locations, t, again, .step hn hv hchain, hagain, ?_⟩
    simp only [Visit.arrive, List.mem_cons, List.map_cons] at hmark ⊢
    tauto

theorem Chain.exists_runs_cyclic {start t : Stop} {l : Location} {locations : List Location}
    (h : Chain specs start locations t) (hn : Names specs t l) (hs : s.toStop = start)
    (hmark : l.mark ∈ s.seen ∨ l.mark ∈ locations.map Location.mark) :
    ∃ n ref, Runs specs s n (.error (.reference (.cyclic ref))) := by
  induction h generalizing s with
  | refl =>
    subst hs
    have hseen : l.mark ∈ s.seen := hmark.resolve_right List.not_mem_nil
    obtain ⟨ref, hpass⟩ := Visit.pass_of_seen hn hseen
    exact ⟨1, ref, .fails hpass⟩
  | @step _ _ next value _ hnext hv _ ih =>
    subst hs
    by_cases hseen : next.mark ∈ s.seen
    · obtain ⟨ref, hpass⟩ := Visit.pass_of_seen hnext hseen
      exact ⟨1, ref, .fails hpass⟩
    · simp only [List.map_cons, List.mem_cons] at hmark
      obtain ⟨n, ref, hruns⟩ := ih hn (s := s.arrive next value) rfl (by
        simp only [Visit.arrive, List.mem_cons]
        tauto)
      exact ⟨n + 1, ref, .passes (Visit.pass_of_value? hnext hseen hv) hruns⟩

end

theorem resolve_eq_iff {ctx : Context} {value : Json} {outcome : Except Fault Resolved} :
    resolve ctx value = outcome ↔ ∃ n, Runs ctx.specs (.start ctx value) n outcome := by
  obtain ⟨n, -, hruns⟩ := exists_runs_resolve ctx value
  refine ⟨fun h => ⟨n, h ▸ hruns⟩, fun ⟨m, h⟩ => ?_⟩
  exact (hruns.unique h).2

theorem get?_eq_none_of_resolve {ctx : Context} {value : Json} {resolved : Resolved}
    (h : resolve ctx value = .ok resolved) : Json.Fields.get? resolved.schema "$ref" = none := by
  obtain ⟨n, hruns⟩ := resolve_eq_iff.mp h
  obtain ⟨_, _, -, hend, -⟩ := hruns.exists_chain
  exact hend

theorem exists_resolve_eq_ok_iff {ctx : Context} {value : Json} {locations : List Location}
    {key : String} {fields : Json.Fields}
    (hchain : Chain ctx.specs ⟨ctx.specKey, value⟩ locations ⟨key, .obj fields⟩)
    (hend : Json.Fields.get? fields "$ref" = none) :
    (∃ imports, resolve ctx value = .ok ⟨fields, imports⟩) ↔
      (locations.map Location.mark).Nodup := by
  constructor
  · rintro ⟨imports, h⟩
    obtain ⟨n, hruns⟩ := resolve_eq_iff.mp h
    obtain ⟨others, key', hchain', -, hmarks, -⟩ := hruns.exists_chain
    obtain ⟨rfl, -⟩ := hchain.unique hend hchain' hend
    exact hmarks.1
  · intro hnodup
    obtain ⟨n, imports, hruns⟩ :=
      hchain.exists_runs (s := .start ctx value) rfl hend rfl ⟨hnodup, fun _ _ => List.not_mem_nil⟩
    exact ⟨imports, resolve_eq_iff.mpr ⟨n, hruns⟩⟩

/-- What `resolve` gives is an object without a reference, at the end of a chain from the value; its
imports are those of the models that the locations of the chain name, in their order. -/
theorem resolve_follows_chain {ctx : Context} {value : Json} {resolved : Resolved}
    (h : resolve ctx value = .ok resolved) :
    ∃ locations key,
      Chain ctx.specs ⟨ctx.specKey, value⟩ locations ⟨key, .obj resolved.schema⟩ ∧
        Json.Fields.has resolved.schema "$ref" = false ∧
        resolved.imports = locations.filterMap Location.import? := by
  obtain ⟨n, hruns⟩ := resolve_eq_iff.mp h
  obtain ⟨locations, key, hchain, hend, -, himports⟩ := hruns.exists_chain
  exact ⟨locations, key, hchain, by simp [Json.Fields.has, hend], himports⟩

/-- Two documents, the second with a parameter that stands for another one. -/
def contextOfTwo : Context where
  specKey := "main"
  specs := [("main", .obj []),
    ("shared", .obj [("components", .obj [("parameters", .obj [
      ("page-size", .obj [("$ref", .str "#/components/parameters/Limit")]),
      ("Limit", .obj [("name", .str "limit"), ("in", .str "query")])])])])]

theorem chain_contextOfTwo : Chain contextOfTwo.specs
    ⟨"main", .obj [("$ref", .str "shared.yaml#/components/parameters/page-size")]⟩
    [⟨"shared", ["components", "parameters", "page-size"]⟩,
      ⟨"shared", ["components", "parameters", "Limit"]⟩]
    ⟨"shared", .obj [("name", .str "limit"), ("in", .str "query")]⟩ := by
  refine .step (.intro "shared.yaml#/components/parameters/page-size" rfl ?_) rfl ?_
  · exact select_eq_ok_iff.mp rfl
  refine .step (.intro "#/components/parameters/Limit" rfl .last) rfl ?_
  exact .refl _

/-- The second reference is looked up in the document that the first one selected. -/
theorem pageSize_resolves : ∃ resolved,
    resolve contextOfTwo (.obj [("$ref", .str "shared.yaml#/components/parameters/page-size")]) =
      .ok resolved ∧
    Json.Fields.has resolved.schema "$ref" = false ∧
    resolved.imports = [{ name := "PageSize", schemaName := some "page-size" },
      { name := "Limit", schemaName := some "Limit" }] := by
  obtain ⟨imports, h⟩ := (exists_resolve_eq_ok_iff chain_contextOfTwo rfl).mpr (by decide)
  obtain ⟨locations, key, hchain, hend, himports⟩ := resolve_follows_chain h
  obtain ⟨rfl, -⟩ := chain_contextOfTwo.unique rfl hchain rfl
  exact ⟨_, h, hend, himports.trans (by decide +kernel)⟩

end Reference

end RequestGen
