import Mathlib.Data.List.SplitBy
import RequestGen.Naming.Identifier
import RequestGen.Proofs.Text.Replace

/-! # The tokens of a code

`tokens` cuts a code into its longest runs of the characters that identifiers are made of, and the
single characters between these. An exchange of one run of such characters for another stays inside
the runs, so what it does to a code is what it does to each token (`tokens_replace`). A run may well
hold the exchanged text without being it: the exchange is a renaming only where no run does
(`tokens_replace_eq_renamed_iff`), and a declaration outlasts it only if that text occurs neither in
the declared name nor in the keyword (`declares_replaceText_iff`). -/

namespace RequestGen

open Naming (isNamePart)

/-! ### Tokens -/

namespace Code

open Text (replace replaceText)

/-- Whether two characters next to each other belong to one token. -/
def joined (c d : Char) : Bool := isNamePart c && isNamePart d

/-- The longest runs of characters of identifiers, and the single characters between them. -/
def tokens (s : List Char) : List (List Char) := s.splitBy joined

/-- At least one character, and only those that identifiers are made of. -/
def IsRun (t : List Char) : Prop := t ≠ [] ∧ ∀ c ∈ t, isNamePart c = true

instance (t : List Char) : Decidable (IsRun t) :=
  decidable_of_iff (t ≠ [] ∧ t.all isNamePart = true) (by simp [IsRun])

/-- A run, or one other character. -/
inductive IsToken : List Char → Prop where
  | run {t : List Char} (h : IsRun t) : IsToken t
  | mark {c : Char} (h : isNamePart c = false) : IsToken [c]

theorem isRun_of_isIdentifierText {s : List Char} (h : Naming.isIdentifierText s = true) :
    IsRun s := by
  cases s with
  | nil => exact nomatch h
  | cons c s => exact ⟨List.cons_ne_nil c s, fun d hd => Naming.isNamePart_of_mem h hd⟩

theorem isRun_singleton {c : Char} : IsRun [c] ↔ isNamePart c = true := by
  simp [IsRun]

theorem isChain_joined_iff {c d : Char} {s : List Char} :
    (c :: d :: s).IsChain (fun c d => joined c d = true) ↔
      ∀ x ∈ c :: d :: s, isNamePart x = true := by
  induction s generalizing c d with
  | nil => simp [joined]
  | cons x s ih =>
    rw [List.isChain_cons_cons, ih, List.forall_mem_cons (a := c), joined, Bool.and_eq_true]
    exact ⟨fun h => ⟨h.1.1, h.2⟩, fun h => ⟨⟨h.1, h.2 d List.mem_cons_self⟩, h.2⟩⟩

theorem isToken_iff {t : List Char} :
    IsToken t ↔ t ≠ [] ∧ t.IsChain fun c d => joined c d = true := by
  match t with
  | [] => exact ⟨fun | .run h => absurd rfl h.1, fun h => absurd rfl h.1⟩
  | [c] =>
    refine iff_of_true ?_ ⟨List.cons_ne_nil c [], List.isChain_singleton c⟩
    cases hc : isNamePart c with
    | true => exact .run (isRun_singleton.mpr hc)
    | false => exact .mark hc
  | c :: d :: s =>
    rw [isChain_joined_iff, and_iff_right (List.cons_ne_nil c _)]
    exact ⟨fun | .run h => h.2, fun h => .run ⟨List.cons_ne_nil c _, h⟩⟩

/-- Two tokens are apart unless both are runs. -/
theorem ends_apart_iff {a b : List Char} (ha : IsToken a) (hb : IsToken b) :
    (∃ hna hnb, joined (a.getLast hna) (b.head hnb) = false) ↔ ¬ (IsRun a ∧ IsRun b) := by
  have hna := (isToken_iff.mp ha).1
  have hnb := (isToken_iff.mp hb).1
  simp only [hna, hnb, ne_eq, not_false_eq_true, exists_true_left]
  cases ha with
  | mark hc => simp [joined, hc, isRun_singleton]
  | run ha =>
    have hlast := ha.2 _ (List.getLast_mem hna)
    cases hb with
    | mark hc => simp [joined, hc, isRun_singleton]
    | run hb => simp [joined, hlast, hb.2 _ (List.head_mem hnb), ha, hb]

theorem tokens_eq_iff {s : List Char} {l : List (List Char)} :
    tokens s = l ↔
      s = l.flatten ∧ (∀ t ∈ l, IsToken t) ∧ l.IsChain fun a b => ¬ (IsRun a ∧ IsRun b) := by
  rw [tokens, List.splitBy_eq_iff]
  refine and_congr_right fun _ => ?_
  constructor
  · rintro ⟨hnil, hjoined, hapart⟩
    have htoken : ∀ t ∈ l, IsToken t := fun t ht =>
      isToken_iff.mpr ⟨fun h => hnil (h ▸ ht), hjoined t ht⟩
    exact ⟨htoken, hapart.imp_of_mem_imp fun a b ha hb =>
      (ends_apart_iff (htoken a ha) (htoken b hb)).mp⟩
  · rintro ⟨htoken, hapart⟩
    refine ⟨fun h => ?_, fun t ht => ?_, hapart.imp_of_mem_imp fun a b ha hb => ?_⟩
    · exact (isToken_iff.mp (htoken [] h)).1 rfl
    · exact (isToken_iff.mp (htoken t ht)).2
    · exact (ends_apart_iff (htoken a ha) (htoken b hb)).mpr

theorem tokens_of_isToken {t : List Char} (h : IsToken t) : tokens t = [t] :=
  tokens_eq_iff.mpr ⟨by simp, by simpa using h, List.isChain_singleton t⟩

/-! ### Tokens after an exchange -/

section Exchange

variable {old new : List Char} (hold : IsRun old) (hnew : IsRun new)

include hold

theorem replace_append {a b : List Char}
    (h : ∀ c ∈ a.getLast?, ∀ d ∈ b.head?, joined c d = false) :
    replace old new (a ++ b) = replace old new a ++ replace old new b := by
  simp only [Text.replace_eq_replaceFrom hold.1]
  refine Text.replaceFrom_append (fun x hx hne hp => ?_) 0 (Nat.zero_le _)
  rcases List.prefix_or_prefix_of_prefix hp (List.prefix_append x b) with hp | ⟨y, rfl⟩
  · exact hp
  · -- an occurrence that reaches over the border joins the two characters beside it
    have hy : y <+: b := (List.prefix_append_right_inj x).mp hp
    cases y with
    | nil => rw [List.append_nil]
    | cons d y =>
      have hlast : x.getLast hne ∈ a.getLast? := by
        rw [hx.getLast hne]
        exact List.getLast_mem_getLast? _
      have hhead : d ∈ b.head? := by
        obtain ⟨rest, rfl⟩ := hy
        rfl
      have hjoined : joined (x.getLast hne) d = true := by
        rw [joined, hold.2 _ (List.mem_append_left _ (List.getLast_mem hne)), hold.2 d (by simp)]
        rfl
      rw [h _ hlast _ hhead] at hjoined
      exact nomatch hjoined

theorem not_infix_mark {c : Char} (hc : isNamePart c = false) : ¬ old <:+: [c] := by
  intro h
  obtain ⟨d, hd⟩ := List.exists_mem_of_ne_nil old hold.1
  obtain rfl := List.mem_singleton.mp (h.subset hd)
  exact Bool.eq_false_iff.mp hc (hold.2 d hd)

theorem replace_mark {c : Char} (hc : isNamePart c = false) : replace old new [c] = [c] := by
  rw [Text.replace_eq_replaceFrom hold.1]
  exact Text.replaceFrom_eq_self (not_infix_mark hold hc)

include hnew

theorem isRun_replace {t : List Char} (ht : IsRun t) : IsRun (replace old new t) := by
  refine ⟨Text.replace_ne_nil hnew.1 ht.1, fun c hc => ?_⟩
  rw [Text.replace_eq_replaceFrom hold.1] at hc
  rcases Text.mem_replaceFrom hc with h | h
  · exact hnew.2 c h
  · exact ht.2 c h

theorem isToken_replace {t : List Char} (ht : IsToken t) : IsToken (replace old new t) := by
  cases ht with
  | run h => exact .run (isRun_replace hold hnew h)
  | mark h => rw [replace_mark hold h]; exact .mark h

omit hnew in
theorem isRun_of_replace {t : List Char} (ht : IsToken t) (h : IsRun (replace old new t)) :
    IsRun t := by
  cases ht with
  | run ht => exact ht
  | mark hc => rwa [replace_mark hold hc] at h

omit hnew in
theorem replace_flatten {l : List (List Char)} (htoken : ∀ t ∈ l, IsToken t)
    (hapart : l.IsChain fun a b => ¬ (IsRun a ∧ IsRun b)) :
    replace old new l.flatten = (l.map (replace old new)).flatten := by
  induction l with
  | nil => rw [Text.replace_eq_replaceFrom hold.1]; rfl
  | cons a l ih =>
    rw [List.flatten_cons, List.map_cons, List.flatten_cons, replace_append hold,
      ih (fun t ht => htoken t (List.mem_cons_of_mem a ht)) hapart.tail]
    intro c hc d hd
    cases l with
    | nil => exact nomatch hd
    | cons b l =>
      obtain ⟨hna, hnb, hjoined⟩ := (ends_apart_iff (htoken a (by simp)) (htoken b (by simp))).mpr
        (List.isChain_cons_cons.mp hapart).1
      rw [List.getLast?_eq_some_getLast hna] at hc
      rw [List.flatten_cons, List.head?_append, List.head?_eq_some_head hnb] at hd
      obtain rfl := Option.some.inj hc
      obtain rfl := Option.some.inj hd
      exact hjoined

/-- What an exchange does to a code is what it does to each token. -/
theorem tokens_replace (s : List Char) :
    tokens (replace old new s) = (tokens s).map (replace old new) := by
  obtain ⟨hs, htoken, hapart⟩ := tokens_eq_iff.mp (rfl : tokens s = tokens s)
  refine tokens_eq_iff.mpr ⟨?_, fun t ht => ?_, ?_⟩
  · rw [← replace_flatten hold htoken hapart, ← hs]
  · obtain ⟨token, hmem, rfl⟩ := List.mem_map.mp ht
    exact isToken_replace hold hnew (htoken token hmem)
  · rw [List.isChain_map]
    refine hapart.imp_of_mem_imp fun a b ha hb hnot hruns => hnot ⟨?_, ?_⟩
    · exact isRun_of_replace hold (htoken a ha) hruns.1
    · exact isRun_of_replace hold (htoken b hb) hruns.2

end Exchange

/-! ### Renaming -/

/-- A token after one name was exchanged for another. -/
def renamed (old new t : List Char) : List Char := if t = old then new else t

theorem replace_eq_renamed_iff {old new t : List Char} (hold : old ≠ []) :
    replace old new t = renamed old new t ↔ old = new ∨ (old <:+: t → t = old) := by
  unfold renamed
  split
  · next h =>
    refine iff_of_true ?_ (.inr fun _ => h)
    rw [h]
    exact Text.replace_own hold
  · next h => rw [Text.replace_eq_self_iff hold, imp_iff_not h]

/-- An exchange of one name for another renames tokens exactly if the name occurs in no longer
one. -/
theorem tokens_replace_eq_renamed_iff {old new : List Char} (hold : IsRun old) (hnew : IsRun new)
    (s : List Char) :
    tokens (replace old new s) = (tokens s).map (renamed old new) ↔
      old = new ∨ ∀ t ∈ tokens s, old <:+: t → t = old := by
  rw [tokens_replace hold hnew, List.map_inj_left]
  simp only [replace_eq_renamed_iff hold.1]
  exact ⟨fun h => or_iff_not_imp_left.mpr fun hne t ht => (h t ht).resolve_left hne,
    fun h t ht => h.imp_right (· t ht)⟩

/-! ### Declarations -/

/-- Whether a code declares a constant of the name. -/
def Declares (name code : String) : Prop :=
  ["const".toList, [' '], name.toList] <:+: tokens code.toList

instance (name code : String) : Decidable (Declares name code) :=
  inferInstanceAs (Decidable (_ <:+: _))

theorem declares_const {name : String} (hn : IsRun name.toList) (value : String) :
    Declares name ("const " ++ name ++ " = " ++ value) := by
  have hjoined {c : Char} : joined c ' ' = false := by
    rw [joined, (by decide : isNamePart ' ' = false), Bool.and_false]
  have htokens : tokens ("const " ++ name ++ " = " ++ value).toList =
      tokens "const ".toList ++ (tokens name.toList ++ tokens (" = " ++ value).toList) := by
    simp only [String.toList_append, List.append_assoc, tokens]
    rw [List.splitBy_append, List.splitBy_append]
    · intro c _ d hd
      obtain rfl : ' ' = d := Option.some.inj hd
      exact hjoined
    · intro c hc d _
      obtain rfl : ' ' = c := Option.some.inj hc
      rfl
  rw [Declares, htokens, tokens_of_isToken (.run hn)]
  exact ⟨[], tokens (" = " ++ value).toList, rfl⟩

/-- An exchange leaves a declaration as it is if the exchanged text occurs neither in the keyword
nor in the declared name, and brings none about that has not been there. -/
theorem declares_replaceText_iff {own new name code : String} (hown : IsRun own.toList)
    (hnew : IsRun new.toList) (hconst : ¬ new.toList <:+: "const".toList)
    (hname : ¬ new.toList <:+: name.toList) :
    Declares name (replaceText own new code) ↔
      Declares name code ∧ ¬ own.toList <:+: "const".toList ∧ ¬ own.toList <:+: name.toList := by
  have hcode : (replaceText own new code).toList = replace own.toList new.toList code.toList :=
    String.toList_ofList
  have hspace : ¬ new.toList <:+: [' '] := not_infix_mark hnew (by decide)
  rw [Declares, hcode, tokens_replace hown hnew, List.infix_map_iff]
  constructor
  · rintro ⟨l, hl, heq⟩
    obtain ⟨keyword, l, rfl, hkeyword, heq⟩ := List.map_eq_cons_iff.mp heq.symm
    obtain ⟨space, l, rfl, hblank, heq⟩ := List.map_eq_cons_iff.mp heq
    obtain ⟨declared, l, rfl, hdeclared, heq⟩ := List.map_eq_cons_iff.mp heq
    obtain rfl := List.map_eq_nil_iff.mp heq
    obtain ⟨rfl, hk⟩ := (Text.replace_eq_iff hown.1 hconst).mp hkeyword
    obtain ⟨rfl, -⟩ := (Text.replace_eq_iff hown.1 hspace).mp hblank
    obtain ⟨rfl, hd⟩ := (Text.replace_eq_iff hown.1 hname).mp hdeclared
    exact ⟨hl, hk, hd⟩
  · rintro ⟨hl, hk, hd⟩
    refine ⟨_, hl, ?_⟩
    rw [List.map_cons, List.map_cons, List.map_cons, List.map_nil,
      (Text.replace_eq_iff hown.1 hconst).mpr ⟨rfl, hk⟩,
      (Text.replace_eq_iff hown.1 hspace).mpr ⟨rfl, not_infix_mark hown (by decide)⟩,
      (Text.replace_eq_iff hown.1 hname).mpr ⟨rfl, hd⟩]

end Code

end RequestGen
