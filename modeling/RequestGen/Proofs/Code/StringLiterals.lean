import RequestGen.Proofs.Code.QuotedTexts
import RequestGen.Yaml.Scalar

/-! # String literals

`readString` reads a text in single quotes as a script does: up to the first quote that no backslash
takes, with the escapes replaced by the code units that they stand for. Every escape is longer than
what it stands for, so what is read of a text that is written between quotes as it is can only be
that text if nothing in it is special (`isPlain_of_readString`). -/

namespace RequestGen.Script

open Code (isLineEnd)

/-! ### Code units -/

/-- The code units of a code point: itself, or a pair of surrogates. -/
def pointUnits (n : Nat) : List Nat :=
  if n < 0x10000 then [n]
  else [0xD800 + (n - 0x10000) / 0x400, 0xDC00 + (n - 0x10000) % 0x400]

/-- The code units of a text. -/
def units (s : List Char) : List Nat := s.flatMap fun c => pointUnits c.toNat

@[simp] theorem units_cons (c : Char) (s : List Char) :
    units (c :: s) = pointUnits c.toNat ++ units s :=
  List.flatMap_cons

@[simp] theorem units_append (s t : List Char) : units (s ++ t) = units s ++ units t :=
  List.flatMap_append

theorem length_pointUnits (n : Nat) : 1 ≤ (pointUnits n).length ∧ (pointUnits n).length ≤ 2 := by
  unfold pointUnits
  split <;> simp

theorem length_le_units (s : List Char) : s.length ≤ (units s).length := by
  induction s with
  | nil => exact Nat.zero_le _
  | cons c s ih =>
    have hc := (length_pointUnits c.toNat).1
    rw [units_cons, List.length_append, List.length_cons]
    omega

/-! ### Escapes -/

/-- The value of hexadecimal digits. -/
def hexValue? (digits : List Char) : Option Nat :=
  if digits = [] then none
  else digits.foldlM (fun n c => (Yaml.hexValue? c).map (16 * n + ·)) 0

/-- The characters that end a line. In quotes, the last two may stand as they are. -/
def lineBreaks : List Char := ['\n', '\r', '\u2028', '\u2029']

/-- What a backslash makes of a character behind it. -/
def escaped : Char → Nat
  | 'b' => 8
  | 't' => 9
  | 'n' => 10
  | 'v' => 11
  | 'f' => 12
  | 'r' => 13
  | c => c.toNat

theorem length_escaped (c : Char) :
    (pointUnits (escaped c)).length ≤ (pointUnits c.toNat).length := by
  unfold escaped
  split <;> exact Nat.le_refl _

/-- The number that so many hexadecimal digits at the head make up, as one unit. -/
def readUnit (width : Nat) (s : List Char) : Option (List Nat × List Char) :=
  if s.length < width then none
  else (hexValue? (s.take width)).map fun n => ([n], s.drop width)

/-- The code units of an escape by number, behind its `u`: any digits in braces, or four digits. -/
def readPoint : List Char → Option (List Nat × List Char)
  | '\x7b' :: s =>
    match s.dropWhile (· != '\x7d') with
    | [] => none
    | _ :: rest =>
      ((hexValue? (s.takeWhile (· != '\x7d'))).filter (· ≤ 0x10FFFF)).map fun n =>
        (pointUnits n, rest)
  | s => readUnit 4 s

/-- The code units of an escape, behind its backslash, and the rest. A line may go on behind a
backslash. -/
def readEscape : List Char → Option (List Nat × List Char)
  | [] => none
  | c :: s =>
    if c = 'x' then readUnit 2 s
    else if c = 'u' then readPoint s
    else if c = '\r' ∧ s.head? = some '\n' then some ([], s.tail)
    else if c ∈ lineBreaks then some ([], s)
    else if c.isDigit then
      if c = '0' ∧ s.head?.any Char.isDigit = false then some ([0], s) else none
    else some (pointUnits (escaped c), s)

theorem quote_not_mem_of_foldlM {digits : List Char} {start n : Nat}
    (h : digits.foldlM (fun n c => (Yaml.hexValue? c).map (16 * n + ·)) start = some n) :
    '\'' ∉ digits := by
  induction digits generalizing start with
  | nil => exact List.not_mem_nil
  | cons c digits ih =>
    rw [List.foldlM_cons] at h
    obtain ⟨next, hnext, hrest⟩ := Option.bind_eq_some_iff.mp h
    refine List.not_mem_cons_of_ne_of_not_mem ?_ (ih hrest)
    rintro rfl
    exact absurd hnext (by simp [Yaml.hexValue?])

theorem quote_not_mem_of_hexValue? {digits : List Char} {n : Nat}
    (h : hexValue? digits = some n) : '\'' ∉ digits := by
  unfold hexValue? at h
  split at h
  · exact nomatch h
  · exact quote_not_mem_of_foldlM h

/-- What stands behind a backslash where it is read as an escape of the units: it is not shorter
than these, and has a quote in it only if it is one. -/
structure IsEscape (used : List Char) (u : List Nat) : Prop where
  ne_nil : used ≠ []
  le : u.length ≤ (units used).length
  quote : '\'' ∈ used → used = ['\''] ∧ u = [39]

theorem IsEscape.of_not_mem {used : List Char} {u : List Nat} (hne : used ≠ [])
    (hle : u.length ≤ used.length) (hquote : '\'' ∉ used) : IsEscape used u :=
  ⟨hne, Nat.le_trans hle (length_le_units used), fun h => absurd h hquote⟩

theorem readUnit_used {width : Nat} {s rest : List Char} {u : List Nat} (hwidth : 0 < width)
    (h : readUnit width s = some (u, rest)) :
    ∃ used, s = used ++ rest ∧ '\'' ∉ used ∧ u.length ≤ used.length := by
  unfold readUnit at h
  split at h
  · exact nomatch h
  · next hlong =>
    obtain ⟨n, hn, heq⟩ := Option.map_eq_some_iff.mp h
    obtain ⟨rfl, rfl⟩ := Prod.mk.inj heq
    refine ⟨s.take width, (List.take_append_drop _ s).symm, quote_not_mem_of_hexValue? hn, ?_⟩
    rw [List.length_take, List.length_singleton]
    omega

theorem readPoint_used {s rest : List Char} {u : List Nat} (h : readPoint s = some (u, rest)) :
    ∃ used, s = used ++ rest ∧ '\'' ∉ used ∧ u.length ≤ used.length := by
  unfold readPoint at h
  split at h
  · next s =>
    split at h
    · cases h
    · next close tail hdrop =>
      obtain ⟨n, hn, heq⟩ := Option.map_eq_some_iff.mp h
      obtain ⟨rfl, rfl⟩ := Prod.mk.inj heq
      have hclose : close = '\x7d' := by
        have hhead := List.head?_dropWhile_not (· != '\x7d') s
        rw [hdrop] at hhead
        simpa using hhead
      have hsplit : s = s.takeWhile (· != '\x7d') ++ close :: tail := by
        rw [← hdrop, List.takeWhile_append_dropWhile]
      have hdigits := quote_not_mem_of_hexValue? (Option.filter_eq_some_iff.mp hn).1
      refine ⟨'\x7b' :: (s.takeWhile (· != '\x7d') ++ [close]), ?_, ?_, ?_⟩
      · rw [List.cons_append, List.append_assoc, List.singleton_append, ← hsplit]
      · simp [hclose, hdigits]
      · have hlength := (length_pointUnits n).2
        rw [List.length_cons, List.length_append, List.length_singleton]
        omega
  · exact readUnit_used (Nat.succ_pos 3) h

theorem readEscape_used {s rest : List Char} {u : List Nat} (h : readEscape s = some (u, rest)) :
    ∃ used, s = used ++ rest ∧ IsEscape used u := by
  cases s with
  | nil => cases h
  | cons c s =>
    -- an escape that goes on behind its first character
    have hlonger (hc : c ≠ '\'') (hused : ∃ used, s = used ++ rest ∧ '\'' ∉ used ∧
        u.length ≤ used.length) : ∃ used, c :: s = used ++ rest ∧ IsEscape used u := by
      obtain ⟨used, rfl, hquote, hle⟩ := hused
      exact ⟨c :: used, rfl, .of_not_mem (List.cons_ne_nil _ _) (Nat.le_succ_of_le hle)
        (List.not_mem_cons_of_ne_of_not_mem hc.symm hquote)⟩
    -- an escape of one character
    have hshort (hc : c ≠ '\'') (hle : u.length ≤ 1) (hrest : s = rest) :
        ∃ used, c :: s = used ++ rest ∧ IsEscape used u :=
      ⟨[c], by rw [hrest]; rfl, .of_not_mem (List.cons_ne_nil _ _) hle (by simpa using hc.symm)⟩
    rw [readEscape] at h
    split at h
    · next hx => exact hlonger (by rw [hx]; decide) (readUnit_used (Nat.succ_pos 1) h)
    split at h
    · next hu => exact hlonger (by rw [hu]; decide) (readPoint_used h)
    split at h
    · next hend =>
      obtain ⟨t, rfl⟩ := List.head?_eq_some_iff.mp hend.2
      obtain ⟨rfl, rfl⟩ := Prod.mk.inj (Option.some.inj h)
      exact hlonger (by rw [hend.1]; decide) ⟨['\n'], rfl, by decide, Nat.zero_le _⟩
    split at h
    · next hbreak =>
      obtain ⟨rfl, rfl⟩ := Prod.mk.inj (Option.some.inj h)
      refine hshort ?_ (Nat.zero_le _) rfl
      rintro rfl
      exact absurd hbreak (by decide)
    split at h
    · next hdigit =>
      split at h
      · obtain ⟨rfl, rfl⟩ := Prod.mk.inj (Option.some.inj h)
        refine hshort ?_ (Nat.le_refl _) rfl
        rintro rfl
        exact absurd hdigit (by decide)
      · cases h
    · obtain ⟨rfl, rfl⟩ := Prod.mk.inj (Option.some.inj h)
      refine ⟨[c], rfl, List.cons_ne_nil _ _, ?_, ?_⟩
      · rw [units_cons, List.length_append]
        exact Nat.le_add_right_of_le (length_escaped c)
      · intro hmem
        obtain rfl := List.mem_singleton.mp hmem
        exact ⟨rfl, rfl⟩

/-! ### Texts in quotes -/

theorem length_lt_of_readEscape {s rest : List Char} {u : List Nat}
    (h : readEscape s = some (u, rest)) : rest.length < s.length := by
  obtain ⟨used, rfl, hused⟩ := readEscape_used h
  have hpos := List.length_pos_iff.mpr hused.ne_nil
  rw [List.length_append]
  omega

/-- The code units of a text up to its closing quote, and what stands behind that. -/
def readString : List Char → Option (List Nat × List Char)
  | [] => none
  | c :: s =>
    if c = '\'' then some ([], s)
    else if c = '\\' then
      match _h : readEscape s with
      | none => none
      | some (u, t) => (readString t).map fun r => (u ++ r.1, r.2)
    else if isLineEnd c then none
    else (readString s).map fun r => (pointUnits c.toNat ++ r.1, r.2)
termination_by s => s.length
decreasing_by
  · have := length_lt_of_readEscape _h
    simp only [List.length_cons]
    omega
  · simp

theorem readString_quote (tail : List Char) : readString ('\'' :: tail) = some ([], tail) := by
  rw [readString, if_pos rfl]

theorem readString_escape (s : List Char) : readString ('\\' :: s) =
    (readEscape s).bind fun e => (readString e.2).map fun r => (e.1 ++ r.1, r.2) := by
  rw [readString, if_neg (by decide), if_pos rfl]
  cases readEscape s <;> rfl

/-- A character that stands for itself in single quotes. -/
def isPlainChar (c : Char) : Bool := c != '\'' && c != '\\' && !isLineEnd c

theorem readString_plain {c : Char} (hc : isPlainChar c = true) (s : List Char) :
    readString (c :: s) = (readString s).map fun r => (pointUnits c.toNat ++ r.1, r.2) := by
  simp only [isPlainChar, Bool.and_eq_true, bne_iff_ne, Bool.not_eq_true'] at hc
  rw [readString, if_neg hc.1.1, if_neg hc.1.2, if_neg (by rw [hc.2]; exact Bool.false_ne_true)]

theorem readString_append {s : List Char} (hs : s.all isPlainChar = true) (tail : List Char) :
    readString (s ++ '\'' :: tail) = some (units s, tail) := by
  induction s with
  | nil => exact readString_quote tail
  | cons c s ih =>
    obtain ⟨hc, hs⟩ := (Bool.and_eq_true _ _).mp (List.all_cons.symm.trans hs)
    rw [List.cons_append, readString_plain hc, ih hs, units_cons]
    rfl

/-- What is read of a text with a quote behind it: all of the text, which is plain; less than the
text; or more than the text, where a backslash at its end takes the quote. -/
inductive ReadsOf (s tail : List Char) (v : List Nat) (rest : List Char) : Prop where
  | all (hs : s.all isPlainChar = true) (hv : v = units s) (hrest : rest = tail)
  | less (h : v.length < (units s).length)
  | more (front w : List Nat) (hs : s.getLast? = some '\\') (hv : v = front ++ 39 :: w)
    (h : readString tail = some (w, rest))

namespace ReadsOf

variable {s tail rest : List Char} {v u : List Nat}

theorem cons_plain (h : ReadsOf s tail v rest) {c : Char} (hc : isPlainChar c = true) :
    ReadsOf (c :: s) tail (pointUnits c.toNat ++ v) rest := by
  cases h with
  | all hs hv hrest => exact .all (by rw [List.all_cons, hc, hs]; rfl) (by rw [hv]; rfl) hrest
  | less h =>
    refine .less ?_
    rw [units_cons, List.length_append, List.length_append]
    omega
  | more front w hs hv h =>
    refine .more (pointUnits c.toNat ++ front) w ?_ (by rw [hv, List.append_assoc]) h
    rw [List.getLast?_cons, hs]
    rfl

theorem cons_escape (h : ReadsOf s tail v rest) {used : List Char} (hused : IsEscape used u) :
    ReadsOf ('\\' :: (used ++ s)) tail (u ++ v) rest := by
  have hless (hle : v.length ≤ (units s).length) :
      (u ++ v).length < (units ('\\' :: (used ++ s))).length := by
    have hbackslash := (length_pointUnits '\\'.toNat).1
    have hle' := hused.le
    rw [units_cons, units_append, List.length_append, List.length_append, List.length_append]
    omega
  cases h with
  | all hs hv hrest => exact .less (hless (Nat.le_of_eq (congrArg _ hv)))
  | less h => exact .less (hless (Nat.le_of_lt h))
  | more front w hs hv h =>
    refine .more (u ++ front) w ?_ (by rw [hv, List.append_assoc]) h
    rw [List.getLast?_cons, List.getLast?_append, hs]
    rfl

end ReadsOf

theorem readsOf_of_readString {s tail rest : List Char} {v : List Nat}
    (h : readString (s ++ '\'' :: tail) = some (v, rest)) : ReadsOf s tail v rest := by
  -- by recursion on the text: a character or an escape is read, and then what is left
  match s with
  | [] =>
    rw [List.nil_append, readString_quote] at h
    obtain ⟨rfl, rfl⟩ := Prod.mk.inj (Option.some.inj h)
    exact .all rfl rfl rfl
  | c :: s =>
    rw [List.cons_append] at h
    by_cases hquote : c = '\''
    · subst hquote
      rw [readString_quote] at h
      obtain ⟨rfl, rfl⟩ := Prod.mk.inj (Option.some.inj h)
      exact .less (Nat.lt_of_lt_of_le (Nat.succ_pos s.length) (length_le_units ('\'' :: s)))
    by_cases hbackslash : c = '\\'
    · subst hbackslash
      rw [readString_escape] at h
      obtain ⟨⟨u, t⟩, hescape, hafter⟩ := Option.bind_eq_some_iff.mp h
      obtain ⟨⟨w, rest'⟩, hread, heq⟩ := Option.map_eq_some_iff.mp hafter
      obtain ⟨rfl, rfl⟩ := Prod.mk.inj heq
      obtain ⟨used, hsplit, hused⟩ := readEscape_used hescape
      rcases List.append_eq_append_iff.mp hsplit with ⟨beyond, rfl, hbeyond⟩ | ⟨back, rfl, rfl⟩
      · cases beyond with
        | nil =>
          obtain rfl : '\'' :: tail = t := hbeyond
          rw [List.append_nil] at hused
          have hnil : ReadsOf [] tail w rest' := readsOf_of_readString (s := []) hread
          simpa using hnil.cons_escape hused
        | cons c beyond =>
          -- the escape takes the quote, so it is nothing but the quote
          obtain ⟨rfl, rfl⟩ := List.cons.inj hbeyond
          obtain ⟨hquote, rfl⟩ := hused.quote (List.mem_append_right s List.mem_cons_self)
          rcases List.append_eq_singleton_iff.mp hquote with ⟨rfl, hlast⟩ | ⟨-, hlast⟩
          · obtain ⟨-, rfl⟩ := List.cons.inj hlast
            exact .more [] w rfl rfl hread
          · exact absurd hlast (List.cons_ne_nil _ _)
      · exact (readsOf_of_readString hread).cons_escape hused
    · cases hend : isLineEnd c with
      | true =>
        rw [readString, if_neg hquote, if_neg hbackslash, if_pos hend] at h
        exact nomatch h
      | false =>
        have hc : isPlainChar c = true := by
          simp [isPlainChar, hquote, hbackslash, hend]
        rw [readString_plain hc] at h
        obtain ⟨⟨w, rest'⟩, hread, heq⟩ := Option.map_eq_some_iff.mp h
        obtain ⟨rfl, rfl⟩ := Prod.mk.inj heq
        exact (readsOf_of_readString hread).cons_plain hc
termination_by s.length

/-- What is read of a text with a quote behind it is that text only if all of it is plain, where
nothing that is read behind the quote ends in a backslash. -/
theorem isPlain_of_readString {s tail rest : List Char}
    (htail : ∀ w rest, readString tail = some (w, rest) → w.getLast? ≠ some 92)
    (h : readString (s ++ '\'' :: tail) = some (units s, rest)) :
    s.all isPlainChar = true ∧ rest = tail := by
  cases readsOf_of_readString h with
  | all hs _ hrest => exact ⟨hs, hrest⟩
  | less h => exact absurd h (Nat.lt_irrefl _)
  | more front w hs hv hread =>
    -- the text ends in a backslash, and what is read of it and more does not
    obtain ⟨init, rfl⟩ := List.getLast?_eq_some_iff.mp hs
    have hlast : (units (init ++ ['\\'])).getLast? = some 92 := by
      rw [units_append, List.getLast?_append]
      rfl
    rw [hv, List.getLast?_append, List.getLast?_cons, Option.some_or] at hlast
    cases hw : w.getLast? with
    | none =>
      rw [hw] at hlast
      exact absurd hlast (by decide)
    | some last =>
      rw [hw] at hlast
      exact absurd (hw.trans hlast) (htail w rest hread)

end RequestGen.Script
