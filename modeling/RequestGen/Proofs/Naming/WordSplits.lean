import RequestGen.Proofs.Naming.Casings

/-! # How a text falls into words

`SplitsInto` says what the words of a text are without a search: they stand in it one after another,
nothing but other characters than letters and digits stands around them, and each is a word in front
of what follows it there (`WordBefore`). Every text falls into words in one way, which is how
`words` takes it apart (`splitsInto_iff`). So no letter and no digit is lost and none is repeated,
and each word has its place in the text (`wordsOf_places`). -/

namespace RequestGen.Naming

/-- A text is a word where `rest` follows it. -/
inductive WordBefore : List Char → List Char → Prop
  /-- Small letters and digits. -/
  | small {run rest : List Char} (hne : run ≠ []) (hrun : ∀ c ∈ run, isSmall c = true)
      (hrest : startsSmall rest = false) : WordBefore run rest
  /-- Small letters and digits with one capital in front. -/
  | led {c : Char} {run rest : List Char} (hc : c.isUpper = true) (hne : run ≠ [])
      (hrun : ∀ c ∈ run, isSmall c = true) (hrest : startsSmall rest = false) :
      WordBefore (c :: run) rest
  /-- Capitals, but for one that leads small letters. -/
  | capitals {c : Char} {run rest : List Char} (hrun : ∀ d ∈ c :: run, d.isUpper = true)
      (hrest : startsLower rest = false) (halone : run = [] → startsSmall rest = false)
      (hnext : ∀ d s, rest = d :: s → d.isUpper = true → startsLower s = true) :
      WordBefore (c :: run) rest

/-- The words of a text, with other characters than letters and digits around them. -/
inductive SplitsInto : List Char → List (List Char) → Prop
  | nil : SplitsInto [] []
  | skip {c : Char} {s : List Char} {ws : List (List Char)} (hc : c.isAlphanum = false)
      (h : SplitsInto s ws) : SplitsInto (c :: s) ws
  | word {w rest : List Char} {ws : List (List Char)} (hw : WordBefore w rest)
      (h : SplitsInto rest ws) : SplitsInto (w ++ rest) (w :: ws)

/-! ### Capitals -/

theorem isSmall_of_isUpper {c : Char} (h : c.isUpper = true) : isSmall c = false := by
  have hZ : c.val ≤ 'Z'.val := (of_decide_eq_true h).2
  have hA : 'A'.val ≤ c.val := (of_decide_eq_true h).1
  rw [isSmall, Bool.or_eq_false_iff]
  constructor
  · refine Bool.eq_false_iff.mpr fun hlower => ?_
    have ha : 'a'.val ≤ c.val := of_decide_eq_true (Bool.and_eq_true_iff.mp hlower).1
    exact absurd (UInt32.le_trans ha hZ) (by decide)
  · refine Bool.eq_false_iff.mpr fun hdigit => ?_
    have h9 : c.val ≤ '9'.val := of_decide_eq_true (Bool.and_eq_true_iff.mp hdigit).2
    exact absurd (UInt32.le_trans hA h9) (by decide)

theorem startsLower_of_startsSmall {s : List Char} (h : startsSmall s = false) :
    startsLower s = false := by
  cases s with
  | nil => rfl
  | cons c s => exact (Bool.or_eq_false_iff.mp h).1

theorem startsSmall_dropWhile (s : List Char) : startsSmall (s.dropWhile isSmall) = false := by
  induction s with
  | nil => rfl
  | cons c s ih =>
    by_cases hc : isSmall c = true
    · rwa [List.dropWhile_cons_of_pos hc]
    · rw [List.dropWhile_cons_of_neg hc]
      exact Bool.eq_false_iff.mpr hc

theorem exists_capitals_eq {c : Char} {s : List Char} (hs : startsLower s = false) :
    ∃ run rest, s = run ++ rest ∧ capitals c s = c :: run ∧ (∀ d ∈ run, d.isUpper = true) ∧
      startsLower rest = false ∧
        ∀ d t, rest = d :: t → d.isUpper = true → startsLower t = true := by
  induction s generalizing c with
  | nil => exact ⟨[], [], rfl, rfl, by simp, rfl, by simp⟩
  | cons d s ih =>
    by_cases hd : d.isUpper = true
    · by_cases hlower : startsLower s = true
      · refine ⟨[], d :: s, rfl, ?_, by simp, hs, ?_⟩
        · rw [capitals, if_pos hd, if_pos hlower]
        · rintro _ _ ⟨⟩ -
          exact hlower
      · obtain ⟨run, rest, rfl, hcapitals, hrun, hrest, hnext⟩ :=
          ih (c := d) (Bool.eq_false_iff.mpr hlower)
        refine ⟨d :: run, rest, rfl, ?_, ?_, hrest, hnext⟩
        · rw [capitals, if_pos hd, if_neg hlower, hcapitals]
        · intro e he
          rcases List.mem_cons.mp he with rfl | he
          · exact hd
          · exact hrun e he
    · refine ⟨[], d :: s, rfl, ?_, by simp, hs, ?_⟩
      · rw [capitals, if_neg hd]
      · rintro _ _ ⟨⟩ hupper
        exact absurd hupper hd

theorem capitals_append {c : Char} {run rest : List Char} (hrun : ∀ d ∈ run, d.isUpper = true)
    (hrest : startsLower rest = false)
    (hnext : ∀ d s, rest = d :: s → d.isUpper = true → startsLower s = true) :
    capitals c (run ++ rest) = c :: run := by
  induction run generalizing c with
  | nil =>
    cases rest with
    | nil => rfl
    | cons d s =>
      rw [List.nil_append, capitals]
      split
      · next hd => rw [if_pos (hnext d s rfl hd)]
      · rfl
  | cons d run ih =>
    have hafter : startsLower (run ++ rest) = false := by
      cases run with
      | nil => exact hrest
      | cons e run =>
        have he := isSmall_of_isUpper (hrun e (by simp))
        exact (Bool.or_eq_false_iff.mp he).1
    have hd := hrun d List.mem_cons_self
    rw [List.cons_append, capitals, if_pos hd, hafter, if_neg Bool.false_ne_true,
      ih fun e he => hrun e (List.mem_cons_of_mem d he)]

/-! ### Words -/

theorem isAlphanum_of_wordBefore {w rest : List Char} (h : WordBefore w rest) :
    ∀ c ∈ w, c.isAlphanum = true := by
  cases h with
  | small _ hrun => exact fun c hc => isAlphanum_of_isSmall (hrun c hc)
  | led hlead _ hrun =>
    intro c hc
    rcases List.mem_cons.mp hc with rfl | hc
    · exact isAlphanum_of_isUpper hlead
    · exact isAlphanum_of_isSmall (hrun c hc)
  | capitals hrun => exact fun c hc => isAlphanum_of_isUpper (hrun c hc)

theorem splitsInto_words (s : List Char) : SplitsInto s (words s) := by
  fun_induction words s with
  | case1 => exact .nil
  | case2 c s h ih =>
    have hrun : ∀ d ∈ s.takeWhile isSmall, isSmall d = true :=
      List.all_eq_true.mp List.all_takeWhile
    have hw : WordBefore (c :: s.takeWhile isSmall) (s.dropWhile isSmall) := by
      by_cases hc : isSmall c = true
      · refine .small (List.cons_ne_nil c _) ?_ (startsSmall_dropWhile s)
        intro d hd
        rcases List.mem_cons.mp hd with rfl | hd
        · exact hc
        · exact hrun d hd
      · obtain ⟨hupper, hstarts⟩ : c.isUpper = true ∧ startsSmall s = true := by simpa [hc] using h
        refine .led hupper ?_ hrun (startsSmall_dropWhile s)
        cases s with
        | nil => exact absurd hstarts Bool.false_ne_true
        | cons d s =>
          have hd : isSmall d = true := hstarts
          rw [List.takeWhile_cons_of_pos hd]
          exact List.cons_ne_nil d _
    have hsplit := SplitsInto.word hw ih
    rwa [List.cons_append, List.takeWhile_append_dropWhile] at hsplit
  | case3 c s h hupper ih =>
    have hsmall : startsSmall s = false := by
      refine Bool.eq_false_iff.mpr fun hs => h ?_
      rw [hupper, hs, Bool.and_self, Bool.or_true]
    obtain ⟨run, rest, rfl, hcapitals, hrun, hrest, hnext⟩ :=
      exists_capitals_eq (c := c) (startsLower_of_startsSmall hsmall)
    rw [hcapitals, List.length_cons, Nat.add_sub_cancel, List.drop_left] at ih ⊢
    refine SplitsInto.word (w := c :: run) (.capitals ?_ hrest ?_ hnext) ih
    · intro d hd
      rcases List.mem_cons.mp hd with rfl | hd
      · exact hupper
      · exact hrun d hd
    · rintro rfl
      exact hsmall
  | case4 c s h hupper ih =>
    refine .skip (Bool.eq_false_iff.mpr fun hc => ?_) ih
    rcases isAlphanum_iff.mp hc with (hc | hc) | hc
    · exact hupper hc
    · exact h (by simp [isSmall, hc])
    · exact h (by simp [isSmall, hc])

theorem SplitsInto.words_eq {s : List Char} {ws : List (List Char)} (h : SplitsInto s ws) :
    words s = ws := by
  induction h with
  | nil => rw [words]
  | @skip c s ws hc _ ih =>
    have hsmall : isSmall c = false :=
      Bool.eq_false_iff.mpr fun hs => Bool.eq_false_iff.mp hc (isAlphanum_of_isSmall hs)
    have hupper : c.isUpper = false :=
      Bool.eq_false_iff.mpr fun hu => Bool.eq_false_iff.mp hc (isAlphanum_of_isUpper hu)
    rw [words, hsmall, hupper, Bool.false_and, Bool.or_self, if_neg Bool.false_ne_true,
      if_neg Bool.false_ne_true, ih]
  | @word w rest ws hw _ ih =>
    rw [← ih]
    cases hw with
    | small hne hrun hrest => exact words_append hne hrun hrest
    | @led c run _ hc hne hrun hrest =>
      have hstarts : startsSmall (run ++ rest) = true := by
        obtain ⟨d, run, rfl⟩ := List.exists_cons_of_ne_nil hne
        exact hrun d List.mem_cons_self
      exact words_cons_append (by rw [hc, hstarts, Bool.and_self, Bool.or_true]) hrun hrest
    | @capitals c run _ hrun hrest halone hnext =>
      have hc := hrun c List.mem_cons_self
      have htail : ∀ d ∈ run, d.isUpper = true := fun d hd => hrun d (List.mem_cons_of_mem c hd)
      have hstarts : startsSmall (run ++ rest) = false := by
        cases run with
        | nil => exact halone rfl
        | cons d run => exact isSmall_of_isUpper (htail d List.mem_cons_self)
      rw [List.cons_append, words, isSmall_of_isUpper hc, hstarts, Bool.and_false, Bool.or_self,
        if_neg Bool.false_ne_true, if_pos hc, capitals_append htail hrest hnext, List.length_cons,
        Nat.add_sub_cancel, List.drop_left]

/-- A text falls into words in one way. -/
theorem splitsInto_iff {s : List Char} {ws : List (List Char)} : SplitsInto s ws ↔ words s = ws :=
  ⟨SplitsInto.words_eq, fun h => h ▸ splitsInto_words s⟩

namespace SplitsInto

variable {s w : List Char} {ws before after : List (List Char)}

theorem flatten_eq (h : SplitsInto s ws) : ws.flatten = s.filter Char.isAlphanum := by
  induction h with
  | nil => rfl
  | @skip c s ws hc _ ih => rw [ih, List.filter_cons_of_neg (Bool.eq_false_iff.mp hc)]
  | @word w rest ws hw _ ih =>
    rw [List.flatten_cons, ih, List.filter_append,
      List.filter_eq_self.mpr (isAlphanum_of_wordBefore hw)]

theorem exists_place (h : SplitsInto s (before ++ w :: after)) :
    ∃ front rest, s = front ++ (w ++ rest) ∧ before.flatten = front.filter Char.isAlphanum ∧
      WordBefore w rest ∧ SplitsInto rest after := by
  generalize hws : before ++ w :: after = ws at h
  induction h generalizing before with
  | nil => simp at hws
  | @skip c s ws hc _ ih =>
    obtain ⟨front, rest, rfl, hbefore, hword, hafter⟩ := ih hws
    refine ⟨c :: front, rest, rfl, ?_, hword, hafter⟩
    rw [hbefore, List.filter_cons_of_neg (Bool.eq_false_iff.mp hc)]
  | @word first rest ws hfirst hrest ih =>
    cases before with
    | nil =>
      obtain ⟨rfl, rfl⟩ := List.cons.inj hws
      exact ⟨[], rest, rfl, rfl, hfirst, hrest⟩
    | cons head before =>
      obtain ⟨rfl, htail⟩ := List.cons.inj hws
      obtain ⟨front, rest, rfl, hbefore, hword, hafter⟩ := ih htail
      refine ⟨head ++ front, rest, (List.append_assoc ..).symm, ?_, hword, hafter⟩
      rw [List.flatten_cons, hbefore, List.filter_append,
        List.filter_eq_self.mpr (isAlphanum_of_wordBefore hfirst)]

end SplitsInto

/-- The words of a name are its letters and digits, none lost and none repeated. Each word stands in
the name behind those before it and in front of those after it, and is a run of small letters and
digits, which one capital may lead, or a run of capitals that no small letter follows there. -/
theorem wordsOf_places (name : String) :
    (wordsOf name).flatMap String.toList = name.toList.filter Char.isAlphanum ∧
      ∀ before word after, wordsOf name = before ++ word :: after →
        ∃ front rest, name.toList = front ++ (word.toList ++ rest) ∧
          before.flatMap String.toList = front.filter Char.isAlphanum ∧
          after.flatMap String.toList = rest.filter Char.isAlphanum ∧
          WordBefore word.toList rest := by
  have hsplit := splitsInto_words name.toList
  have hflat (ws : List String) : ws.flatMap String.toList = (ws.map String.toList).flatten :=
    List.flatMap_def
  have hwords : (wordsOf name).map String.toList = words name.toList := by
    simp [wordsOf, Function.comp_def]
  refine ⟨by rw [hflat, hwords, hsplit.flatten_eq], fun before word after h => ?_⟩
  rw [← hwords, h, List.map_append, List.map_cons] at hsplit
  obtain ⟨front, rest, hname, hbefore, hword, hafter⟩ := hsplit.exists_place
  exact ⟨front, rest, hname, by rw [hflat, hbefore], by rw [hflat, hafter.flatten_eq], hword⟩

end RequestGen.Naming
