import RequestGen.Proofs.Reference.Resolution
import RequestGen.Proofs.Text.Replace

/-! # Locations that look alike

A mark has the keys of a location as one text, so two locations look alike if a key with a slash in
it is spelled like two keys. On a chain with two such locations references count as cyclic although
the chain never comes back and has an end (`resolve_iff_marks_apart`). Locations whose keys have no
slash never look alike (`Location.eq_of_mark_eq`), and if all keys of a chain are like that,
`resolve` gives its end (`Chain.resolves`). -/

namespace RequestGen

namespace Reference

theorem ne_empty_of_mem_tokens {text token : String} (h : token ∈ (ofText text).tokens) :
    token ≠ "" := by
  obtain ⟨chars, hchars, rfl⟩ := List.mem_map.mp h
  obtain ⟨piece, hpiece, rfl⟩ := List.mem_map.mp hchars
  have hne : piece ≠ [] := by simpa using (List.mem_filter.mp hpiece).2
  have hkey : unescape piece ≠ [] :=
    Text.replace_ne_nil (by simp) (Text.replace_ne_nil (by simp) hne)
  exact fun h => hkey (String.ofList_eq_empty_iff.mp h)

theorem Chain.ne_empty_of_mem {specs : Json.Fields} {s t : Stop} {locations : List Location}
    {l : Location} {token : String} (h : Chain specs s locations t) (hl : l ∈ locations)
    (htoken : token ∈ l.tokens) : token ≠ "" := by
  induction h with
  | refl => exact nomatch hl
  | step hn _ _ ih =>
    rcases List.mem_cons.mp hl with rfl | hl
    · cases hn
      exact ne_empty_of_mem_tokens htoken
    · exact ih hl

namespace Location

/-- A location all of whose keys are without a slash, and none of them empty. -/
def Plain (l : Location) : Prop := ∀ token ∈ l.tokens, token ≠ "" ∧ '/' ∉ token.toList

theorem splitOn_mark {l : Location} (h : l.Plain) :
    (l.mark.2.toList.splitOn '/').filter (· ≠ []) = l.tokens.map String.toList := by
  have hne : (l.tokens.map String.toList).filter (· ≠ []) = l.tokens.map String.toList := by
    refine List.filter_eq_self.mpr fun chars hchars => ?_
    obtain ⟨token, htoken, rfl⟩ := List.mem_map.mp hchars
    simpa using (h token htoken).1
  rw [mark, String.toList_intercalate]
  cases htokens : l.tokens with
  | nil => rfl
  | cons token tokens =>
    rw [htokens] at hne
    rw [show "/".toList = ['/'] from rfl, List.splitOn_intercalate, hne]
    · intro chars hchars
      obtain ⟨token, htoken, rfl⟩ := List.mem_map.mp hchars
      exact (h token (htokens ▸ htoken)).2
    · simp

theorem eq_of_mark_eq {l l' : Location} (h : l.Plain) (h' : l'.Plain) (hm : l.mark = l'.mark) :
    l = l' := by
  have htokens : l.tokens.map String.toList = l'.tokens.map String.toList := by
    rw [← splitOn_mark h, ← splitOn_mark h', hm]
  have hkeys : l.tokens = l'.tokens :=
    List.map_injective_iff.mpr (fun _ _ => String.toList_inj.mp) htokens
  have hkey : l.specKey = l'.specKey := congrArg Prod.fst hm
  cases l
  cases l'
  simp_all

end Location

/-! ### Chains whose locations look alike -/

/-- A chain that ends in an object without a reference never comes back to a location, and `resolve`
gives that object exactly if different locations of the chain have different marks. References count
as cyclic exactly if the chain comes to a location with a mark that it has met before. -/
theorem resolve_iff_marks_apart (ctx : Context) (value : Json) :
    (∀ locations key fields,
      Chain ctx.specs ⟨ctx.specKey, value⟩ locations ⟨key, .obj fields⟩ →
      Json.Fields.get? fields "$ref" = none →
      locations.Nodup ∧
        ((∃ imports, resolve ctx value = .ok ⟨fields, imports⟩) ↔
          ∀ l ∈ locations, ∀ l' ∈ locations, l.mark = l'.mark → l = l')) ∧
    ((∃ ref, resolve ctx value = .error (.reference (.cyclic ref))) ↔
      ∃ locations t l, Chain ctx.specs ⟨ctx.specKey, value⟩ locations t ∧ Names ctx.specs t l ∧
        l.mark ∈ locations.map Location.mark) := by
  refine ⟨fun locations key fields hchain hend => ?_, ?_, ?_⟩
  · have hnodup := hchain.nodup hend
    refine ⟨hnodup, (exists_resolve_eq_ok_iff hchain hend).trans ⟨fun h => ?_, fun h => ?_⟩⟩
    · exact List.inj_on_of_nodup_map h
    · exact List.Nodup.map_on h hnodup
  · rintro ⟨ref, h⟩
    obtain ⟨n, hruns⟩ := resolve_eq_iff.mp h
    obtain ⟨locations, t, l, hchain, hn, hmark⟩ := hruns.exists_mark_again
    exact ⟨locations, t, l, hchain, hn, hmark.resolve_left List.not_mem_nil⟩
  · rintro ⟨locations, t, l, hchain, hn, hmark⟩
    obtain ⟨n, ref, hruns⟩ :=
      hchain.exists_runs_cyclic (s := .start ctx value) hn rfl (.inr hmark)
    exact ⟨ref, resolve_eq_iff.mpr ⟨n, hruns⟩⟩

/-- A document with the key `a/b` and, apart from it, the key `b` inside `a`. -/
def contextWithSlash : Context where
  specKey := "main"
  specs := [("main", .obj [("a/b", .obj [("$ref", .str "#/a/b")]),
    ("a", .obj [("b", .obj [("type", .str "string")])])])]

theorem chain_contextWithSlash : Chain contextWithSlash.specs
    ⟨"main", .obj [("$ref", .str "#/a~1b")]⟩ [⟨"main", ["a/b"]⟩, ⟨"main", ["a", "b"]⟩]
    ⟨"main", .obj [("type", .str "string")]⟩ := by
  refine .step (.intro "#/a~1b" rfl .last) rfl ?_
  refine .step (.intro "#/a/b" rfl .last) rfl ?_
  exact .refl _

/-- The two locations are different, but both are marked `a/b`. -/
theorem slash_counts_as_cyclic :
    (∃ locations key fields,
      Chain contextWithSlash.specs ⟨"main", .obj [("$ref", .str "#/a~1b")]⟩ locations
        ⟨key, .obj fields⟩ ∧
      Json.Fields.get? fields "$ref" = none ∧ locations.Nodup ∧
      ¬∃ imports, resolve contextWithSlash (.obj [("$ref", .str "#/a~1b")]) =
        .ok ⟨fields, imports⟩) ∧
    ∃ ref, resolve contextWithSlash (.obj [("$ref", .str "#/a~1b")]) =
      .error (.reference (.cyclic ref)) := by
  obtain ⟨hend, hcyclic⟩ :=
    resolve_iff_marks_apart contextWithSlash (.obj [("$ref", .str "#/a~1b")])
  obtain ⟨hnodup, hiff⟩ := hend _ _ _ chain_contextWithSlash rfl
  refine ⟨⟨_, _, _, chain_contextWithSlash, rfl, hnodup, fun hresolves => ?_⟩, hcyclic.mpr ?_⟩
  · have := hiff.mp hresolves ⟨"main", ["a/b"]⟩ (by simp) ⟨"main", ["a", "b"]⟩ (by simp) (by decide)
    exact absurd this (by decide)
  · refine ⟨[⟨"main", ["a/b"]⟩], ⟨"main", .obj [("$ref", .str "#/a/b")]⟩,
      ⟨"main", ["a", "b"]⟩, ?_, ?_, ?_⟩
    · exact .step (.intro "#/a~1b" rfl .last) rfl (.refl _)
    · exact .intro "#/a/b" rfl .last
    · decide

/-- If no key on a chain has a slash, the chain is walked to its end. -/
theorem Chain.resolves {ctx : Context} {value : Json} {locations : List Location} {key : String}
    {fields : Json.Fields}
    (h : Chain ctx.specs ⟨ctx.specKey, value⟩ locations ⟨key, .obj fields⟩)
    (hend : Json.Fields.get? fields "$ref" = none)
    (hslash : ∀ l ∈ locations, ∀ token ∈ l.tokens, '/' ∉ token.toList) :
    ∃ imports, resolve ctx value = .ok ⟨fields, imports⟩ := by
  refine (exists_resolve_eq_ok_iff h hend).mpr ((h.nodup hend).map_on fun l hl l' hl' hm => ?_)
  have hplain : ∀ l ∈ locations, l.Plain := fun l hl token htoken =>
    ⟨h.ne_empty_of_mem hl htoken, hslash l hl token htoken⟩
  exact Location.eq_of_mark_eq (hplain l hl) (hplain l' hl') hm

end Reference

end RequestGen
