import RequestGen.Proofs.Reference.Resolution

/-! # References that are no texts

Whatever a value is, references are followed from it to an object without one, to an error that says
why a reference cannot be followed, or to an object whose `$ref` is no text: that is the one case
that `resolve` has no words for (`resolve_eq_noMembers_iff`, `exists_of_resolve_eq_error`). -/

namespace RequestGen

namespace Reference

/-- A chain of references that never meets a mark again leads from the value to the object. -/
def Leads (ctx : Context) (value : Json) (fields : Json.Fields) : Prop :=
  ∃ locations key, Chain ctx.specs ⟨ctx.specKey, value⟩ locations ⟨key, .obj fields⟩ ∧
    (locations.map Location.mark).Nodup

/-- The object has a reference that is no text. -/
def HasNonText (fields : Json.Fields) : Prop :=
  ∃ ref, Json.Fields.get? fields "$ref" = some ref ∧ ∀ text, ref ≠ .str text

section
variable {ctx : Context} {specs : Json.Fields} {s : Visit} {fault : Fault} {value : Json}
  {fields : Json.Fields}

theorem leads_self (ctx : Context) (fields : Json.Fields) : Leads ctx (.obj fields) fields :=
  ⟨[], ctx.specKey, .refl _, List.nodup_nil⟩

theorem eq_of_leads {other : Json.Fields} (hend : Json.Fields.get? fields "$ref" = none)
    (h : Leads ctx (.obj fields) other) : other = fields := by
  obtain ⟨locations, key, hchain, -⟩ := h
  cases hchain with
  | refl => rfl
  | step hn => exact absurd hend hn.refOf?_ne_none

theorem exists_resolve_iff_leads :
    (∃ imports, resolve ctx value = .ok ⟨fields, imports⟩) ↔
      Leads ctx value fields ∧ Json.Fields.get? fields "$ref" = none := by
  constructor
  · rintro ⟨imports, h⟩
    obtain ⟨n, hruns⟩ := resolve_eq_iff.mp h
    obtain ⟨locations, key, hchain, hend, hmarks, -⟩ := hruns.exists_chain
    exact ⟨⟨locations, key, hchain, hmarks.1⟩, hend⟩
  · rintro ⟨⟨locations, key, hchain, hnodup⟩, hend⟩
    exact (exists_resolve_eq_ok_iff hchain hend).mpr hnodup

/-! ### Passes and runs that fail -/

namespace Visit

theorem pass_eq_noMembers_iff :
    s.pass specs = some (.error .noMembers) ↔
      ∃ fields, s.value = .obj fields ∧ HasNonText fields := by
  constructor
  · intro h
    obtain ⟨ref, hr, hpass⟩ := Option.map_eq_some_iff.mp h
    have hnonText (text : String) : ref ≠ .str text := by
      rintro rfl
      dsimp only at hpass
      split at hpass
      · exact nomatch hpass
      · split at hpass
        · exact nomatch hpass
        · split at hpass <;> exact nomatch hpass
    cases hvalue : s.value with
    | obj fields =>
      rw [hvalue] at hr
      exact ⟨fields, rfl, ref, hr, hnonText⟩
    | _ =>
      rw [hvalue] at hr
      exact nomatch hr
  · rintro ⟨fields, hvalue, ref, hr, hnonText⟩
    unfold pass
    rw [hvalue]
    show (Json.Fields.get? fields "$ref").map _ = _
    rw [hr, Option.map_some]
    cases ref with
    | str text => exact absurd rfl (hnonText text)
    | _ => rfl

theorem eq_of_pass_eq_error (h : s.pass specs = some (.error fault)) :
    (∃ e, fault = .reference e) ∨ fault = .noMembers := by
  obtain ⟨ref, -, hpass⟩ := Option.map_eq_some_iff.mp h
  split at hpass
  · dsimp only at hpass
    split at hpass
    · exact .inl ⟨_, (Except.error.inj hpass).symm⟩
    · split at hpass
      · exact .inl ⟨_, (Except.error.inj hpass).symm⟩
      · split at hpass
        · exact .inl ⟨_, (Except.error.inj hpass).symm⟩
        · exact nomatch hpass
  · exact .inr (Except.error.inj hpass).symm

end Visit

theorem Runs.eq_of_error {n : Nat} (h : Runs specs s n (.error fault)) :
    (∃ e, fault = .reference e) ∨ fault = .noMembers := by
  generalize hr : Except.error fault = outcome at h
  induction h with
  | @done s h =>
    unfold Visit.outcome at hr
    split at hr
    · exact nomatch hr
    · exact .inl ⟨_, Except.error.inj hr⟩
  | fails h =>
    obtain rfl := Except.error.inj hr
    exact Visit.eq_of_pass_eq_error h
  | passes _ _ ih => exact ih hr

theorem Runs.exists_nonText {n : Nat} (h : Runs specs s n (.error .noMembers)) :
    ∃ locations key fields, Chain specs s.toStop locations ⟨key, .obj fields⟩ ∧
      HasNonText fields ∧ MarksApart s.seen locations := by
  generalize hr : Except.error Fault.noMembers = outcome at h
  induction h with
  | @done s h =>
    unfold Visit.outcome at hr
    split at hr <;> exact nomatch hr
  | @fails s e h =>
    obtain rfl := Except.error.inj hr
    obtain ⟨fields, hvalue, hnonText⟩ := Visit.pass_eq_noMembers_iff.mp h
    refine ⟨[], s.specKey, fields, ?_, hnonText, List.nodup_nil, nofun⟩
    rw [← hvalue]
    exact .refl s.toStop
  | passes h _ ih =>
    obtain ⟨l, value, hn, hseen, hv, rfl⟩ := Visit.exists_of_pass_eq_ok h
    obtain ⟨locations, key, fields, hchain, hnonText, hmarks⟩ := ih hr
    exact ⟨l :: locations, key, fields, .step hn hv hchain, hnonText,
      marksApart_cons.mpr ⟨hseen, hmarks⟩⟩

theorem Chain.exists_runs_nonText {start stop : Stop} {locations : List Location}
    (h : Chain specs start locations stop) (hstop : stop.value = .obj fields)
    (hnonText : HasNonText fields) (hs : s.toStop = start) (hmarks : MarksApart s.seen locations) :
    ∃ n, Runs specs s n (.error .noMembers) := by
  induction h generalizing s with
  | refl =>
    subst hs
    exact ⟨1, .fails (Visit.pass_eq_noMembers_iff.mpr ⟨fields, hstop, hnonText⟩)⟩
  | @step _ _ l value _ hn hv _ ih =>
    subst hs
    obtain ⟨hseen, hmarks⟩ := marksApart_cons.mp hmarks
    obtain ⟨n, hruns⟩ := ih hstop (s := s.arrive l value) rfl hmarks
    exact ⟨n + 1, .passes (Visit.pass_of_value? hn hseen hv) hruns⟩

/-! ### What `resolve` has no words for -/

theorem exists_of_resolve_eq_error (h : resolve ctx value = .error fault) :
    (∃ e, fault = .reference e) ∨ fault = .noMembers := by
  obtain ⟨n, hruns⟩ := resolve_eq_iff.mp h
  exact hruns.eq_of_error

/-- References lead to one that is no text. -/
theorem resolve_eq_noMembers_iff :
    resolve ctx value = .error .noMembers ↔
      ∃ fields, Leads ctx value fields ∧ HasNonText fields := by
  constructor
  · intro h
    obtain ⟨n, hruns⟩ := resolve_eq_iff.mp h
    obtain ⟨locations, key, fields, hchain, hnonText, hmarks⟩ := hruns.exists_nonText
    exact ⟨fields, ⟨locations, key, hchain, hmarks.1⟩, hnonText⟩
  · rintro ⟨fields, ⟨locations, key, hchain, hnodup⟩, hnonText⟩
    exact resolve_eq_iff.mpr (hchain.exists_runs_nonText (s := .start ctx value) rfl hnonText rfl
      ⟨hnodup, fun _ _ => List.not_mem_nil⟩)

end

end Reference

end RequestGen
