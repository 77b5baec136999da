import RequestGen.Client.Imports
import RequestGen.Code.Expr

/-! # The names that a code refers to

`refersTo` looks for a name between characters that continue no name. Where two texts meet at such a
character, their concatenation refers to what the two refer to (`refersTo_append`). So an expression
refers to the names in the texts that it is written with (`Expr.refersTo_render`). -/

namespace RequestGen

open Text (isNameChar)

/-- A name that can be looked for: at least one character, and only those that continue names. -/
def IsPlainName (name : String) : Prop := name ≠ "" ∧ ∀ c ∈ name.toList, isNameChar c = true

instance (name : String) : Decidable (IsPlainName name) :=
  decidable_of_iff (name ≠ "" ∧ name.toList.all isNameChar = true) (by simp [IsPlainName])

/-! ### Texts that meet at the end of a name -/

section Words

variable {word : List Char} {c : Char}

theorem isPrefixOf_append_cons (hw : ∀ d ∈ word, isNameChar d = true) (hc : isNameChar c = false)
    (s t : List Char) : word.isPrefixOf (s ++ c :: t) = word.isPrefixOf s := by
  induction word generalizing s with
  | nil => rfl
  | cons d word ih =>
    cases s with
    | nil =>
      have hne : d ≠ c := fun h => by simp [← h, hw d List.mem_cons_self] at hc
      simp [List.isPrefixOf, hne]
    | cons d' s =>
      have ih := ih (fun x hx => hw x (List.mem_cons_of_mem _ hx)) s
      simp only [List.cons_append, List.isPrefixOf, ih]

theorem wordAt_append_cons (hw : ∀ d ∈ word, isNameChar d = true) (hc : isNameChar c = false)
    (s t : List Char) :
    (word.isPrefixOf (s ++ c :: t) && !((s ++ c :: t).drop word.length).head?.any isNameChar) =
      (word.isPrefixOf s && !(s.drop word.length).head?.any isNameChar) := by
  rw [isPrefixOf_append_cons hw hc]
  cases hp : word.isPrefixOf s with
  | false => rfl
  | true =>
    obtain ⟨rest, rfl⟩ := List.isPrefixOf_iff_prefix.mp hp
    rw [List.append_assoc, List.drop_left, List.drop_left]
    cases rest with
    | nil => simp [hc]
    | cons d rest => rfl

theorem refersFrom_nil (hne : word ≠ []) (inName : Bool) : refersFrom word inName [] = false := by
  simp [refersFrom, hne]

theorem refersFrom_append_cons (hne : word ≠ []) (hw : ∀ d ∈ word, isNameChar d = true)
    (hc : isNameChar c = false) (inName : Bool) (s t : List Char) :
    refersFrom word inName (s ++ c :: t) =
      (refersFrom word inName s || refersFrom word false t) := by
  -- whether a name is going on changes from character to character, so it is left open
  induction s generalizing inName with
  | nil =>
    have hprefix : word.isPrefixOf ([] ++ c :: t) = false := by
      rw [isPrefixOf_append_cons hw hc]
      cases word with
      | nil => exact absurd rfl hne
      | cons => rfl
    rw [List.nil_append] at hprefix ⊢
    simp [refersFrom, hprefix, hc, hne]
  | cons d s ih =>
    have hword := wordAt_append_cons hw hc (d :: s) t
    rw [List.cons_append] at hword ⊢
    simp only [refersFrom, Bool.and_assoc, hword, ih, Bool.or_assoc]

theorem refersFrom_cons (hne : word ≠ []) (hw : ∀ d ∈ word, isNameChar d = true)
    (hc : isNameChar c = false) (s : List Char) :
    refersFrom word false (c :: s) = refersFrom word false s := by
  have h := refersFrom_append_cons hne hw hc false [] s
  rwa [List.nil_append, refersFrom_nil hne, Bool.false_or] at h

theorem refersFrom_append (hne : word ≠ []) (hw : ∀ d ∈ word, isNameChar d = true) {t : List Char}
    (ht : t.head?.any isNameChar = false) (inName : Bool) (s : List Char) :
    refersFrom word inName (s ++ t) = (refersFrom word inName s || refersFrom word false t) := by
  cases t with
  | nil => rw [List.append_nil, refersFrom_nil hne, Bool.or_false]
  | cons c t =>
    have hc : isNameChar c = false := by simpa using ht
    rw [refersFrom_append_cons hne hw hc, refersFrom_cons hne hw hc]

theorem refersFrom_true (hne : word ≠ []) {s : List Char} (hs : ∀ d ∈ s, isNameChar d = true) :
    refersFrom word true s = false := by
  induction s with
  | nil => exact refersFrom_nil hne true
  | cons d s ih =>
    rw [refersFrom, hs d List.mem_cons_self, ih fun x hx => hs x (List.mem_cons_of_mem _ hx)]
    rfl

end Words

/-- Whether no name of a text before it goes on in the text. -/
def startsApart (s : String) : Bool := !s.toList.head?.any isNameChar

/-- Whether no name of the text goes on in a text after it. -/
def endsApart (s : String) : Bool := !s.toList.getLast?.any isNameChar

theorem endsApart_append {a b : String} (hb : b ≠ "") : endsApart (a ++ b) = endsApart b := by
  have hb' : b.toList ≠ [] := fun h => hb (String.toList_inj.mp h)
  simp [endsApart, List.getLast?_append, List.getLast?_eq_some_getLast hb']

theorem startsApart_append {a b : String} (ha : a ≠ "") :
    startsApart (a ++ b) = startsApart a := by
  have ha' : a.toList ≠ [] := fun h => ha (String.toList_inj.mp h)
  simp [startsApart, List.head?_append, List.head?_eq_some_head ha']

section

variable {name : String}

theorem refersTo_empty (hn : IsPlainName name) : refersTo "" name = false :=
  refersFrom_nil (fun h => hn.1 (String.toList_inj.mp h)) false

/-- Where no name goes on from one text into the next, both together refer to what each does. -/
theorem refersTo_append (hn : IsPlainName name) {a b : String}
    (h : endsApart a = true ∨ startsApart b = true) :
    refersTo (a ++ b) name = (refersTo a name || refersTo b name) := by
  have hne : name.toList ≠ [] := fun h => hn.1 (String.toList_inj.mp h)
  unfold refersTo
  rw [String.toList_append]
  rcases h with h | h
  · -- the first text is empty or ends at a character that continues no name
    cases ha : a.toList.getLast? with
    | none =>
      rw [List.getLast?_eq_none_iff.mp ha, refersFrom_nil hne]
      rfl
    | some c =>
      have hc : isNameChar c = false := by simpa [endsApart, ha] using h
      obtain ⟨s, hs⟩ := List.getLast?_eq_some_iff.mp ha
      rw [hs, List.append_assoc, List.singleton_append, refersFrom_append_cons hne hn.2 hc,
        refersFrom_append_cons hne hn.2 hc, refersFrom_nil hne, Bool.or_false]
  · exact refersFrom_append hne hn.2 (by simpa [startsApart] using h) false a.toList

theorem refersTo_of_not_isNameChar (hn : IsPlainName name) {s : String}
    (h : ∀ c ∈ s.toList, isNameChar c = false) : refersTo s name = false := by
  have hne : name.toList ≠ [] := fun h => hn.1 (String.toList_inj.mp h)
  unfold refersTo
  induction hs : s.toList generalizing s with
  | nil => exact refersFrom_nil hne false
  | cons c t ih =>
    rw [refersFrom_cons hne hn.2 (h c (by simp [hs]))]
    exact ih (s := String.ofList t) (fun d hd => h d (by simp_all)) String.toList_ofList

theorem refersTo_of_isNameChar (hn : IsPlainName name) {s : String}
    (h : ∀ c ∈ s.toList, isNameChar c = true) : refersTo s name = decide (s = name) := by
  have hne : name.toList ≠ [] := fun h => hn.1 (String.toList_inj.mp h)
  simp only [← String.toList_inj]
  unfold refersTo
  cases hs : s.toList with
  | nil => simp [refersFrom_nil hne, Ne.symm hne]
  | cons c t =>
    have ht : ∀ d ∈ t, isNameChar d = true := fun d hd => h d (by simp [hs, hd])
    rw [refersFrom, h c (by simp [hs]), refersFrom_true hne ht, Bool.or_false]
    by_cases heq : c :: t = name.toList
    · simp [heq]
    · simp only [heq, decide_false, Bool.not_false, Bool.true_and]
      -- a name that the text goes on after is no whole name of it
      cases hp : name.toList.isPrefixOf (c :: t) with
      | false => rfl
      | true =>
        obtain ⟨rest, hrest⟩ := List.isPrefixOf_iff_prefix.mp hp
        rw [← hrest, List.drop_left]
        cases rest with
        | nil => exact absurd (by rw [← hrest, List.append_nil]) heq
        | cons d rest =>
          have hd : isNameChar d = true := h d (by rw [hs, ← hrest]; simp)
          simp [hd]

/-- A mark, which ends the names on both of its sides and is no part of any. -/
def IsMark (s : String) : Prop := s ≠ "" ∧ ∀ c ∈ s.toList, isNameChar c = false

instance (s : String) : Decidable (IsMark s) :=
  decidable_of_iff (s ≠ "" ∧ s.toList.all (fun c => !isNameChar c) = true) (by simp [IsMark])

theorem IsMark.startsApart {m : String} (hm : IsMark m) : startsApart m = true := by
  cases hl : m.toList with
  | nil => simp [RequestGen.startsApart, hl]
  | cons c s => simp [RequestGen.startsApart, hl, hm.2 c (by simp [hl])]

theorem IsMark.endsApart {m : String} (hm : IsMark m) : endsApart m = true := by
  cases hl : m.toList.getLast? with
  | none => simp [RequestGen.endsApart, hl]
  | some c => simp [RequestGen.endsApart, hl, hm.2 c (List.mem_of_getLast? hl)]

theorem IsMark.endsApart_append {m : String} (hm : IsMark m) (s : String) :
    RequestGen.endsApart (s ++ m) = true :=
  (RequestGen.endsApart_append hm.1).trans hm.endsApart

theorem refersTo_mark_append (hn : IsPlainName name) {m : String} (hm : IsMark m) (s : String) :
    refersTo (m ++ s) name = refersTo s name := by
  rw [refersTo_append hn (.inl hm.endsApart), refersTo_of_not_isNameChar hn hm.2, Bool.false_or]

theorem refersTo_append_mark (hn : IsPlainName name) {m : String} (hm : IsMark m) (s : String) :
    refersTo (s ++ m) name = refersTo s name := by
  rw [refersTo_append hn (.inr hm.startsApart), refersTo_of_not_isNameChar hn hm.2, Bool.or_false]

theorem refersTo_append_mark_append (hn : IsPlainName name) {m : String} (hm : IsMark m)
    (a b : String) : refersTo (a ++ m ++ b) name = (refersTo a name || refersTo b name) := by
  rw [refersTo_append hn (.inl (hm.endsApart_append a)), refersTo_append_mark hn hm]

theorem refersTo_between (hn : IsPlainName name) {opening closing : String}
    (ho : endsApart opening = true) (hc : IsMark closing) (s : String) :
    refersTo (opening ++ s ++ closing) name = (refersTo opening name || refersTo s name) := by
  rw [refersTo_append_mark hn hc, refersTo_append hn (.inl ho)]

theorem refersTo_intercalate (hn : IsPlainName name) {m : String} (hm : IsMark m)
    (texts : List String) :
    refersTo (String.intercalate m texts) name = texts.any (refersTo · name) := by
  induction texts with
  | nil => exact refersTo_empty hn
  | cons text texts ih =>
    cases texts with
    | nil => simp
    | cons next texts =>
      rw [String.intercalate_cons_cons, refersTo_append_mark_append hn hm, ih,
        List.any_cons (a := text)]

theorem refersTo_commaList (hn : IsPlainName name) (texts : List String) :
    refersTo (Text.commaList texts) name = texts.any (refersTo · name) :=
  refersTo_intercalate hn (by decide) texts

theorem any_filter_ne_empty (hn : IsPlainName name) (texts : List String) :
    (texts.filter (· ≠ "")).any (refersTo · name) = texts.any (refersTo · name) := by
  rw [List.any_filter]
  congr 1
  funext text
  by_cases h : text = ""
  · simp [h, refersTo_empty hn]
  · simp [h]

theorem refersTo_commaListOfNonempty (hn : IsPlainName name) (texts : List String) :
    refersTo (Text.commaListOfNonempty texts) name = texts.any (refersTo · name) := by
  rw [Text.commaListOfNonempty, refersTo_commaList hn, any_filter_ne_empty hn]

theorem refersTo_join_map {α : Type} (hn : IsPlainName name) {m : String} (hm : IsMark m)
    (text : α → String) (items : List α) :
    refersTo (String.join (items.map fun item => text item ++ m)) name =
      items.any fun item => refersTo (text item) name := by
  induction items with
  | nil => exact refersTo_empty hn
  | cons item items ih =>
    rw [List.map_cons, String.join_cons, refersTo_append_mark_append hn hm, ih, List.any_cons]

end

/-! ### Expressions -/

namespace Code

mutual

/-- Whether one of the texts that an expression is written with refers to the name. -/
def Expr.mentions (name : String) : Expr → Bool
  | .name code => refersTo code name
  | .optionalMember value member => refersTo value name || refersTo member name
  | .quoted text => refersTo text name
  | .template text => refersTo text name
  | .literal value => refersTo (Code.literal value) name
  | .object _ entries => anyEntryMentions name entries
  | .whenSet held => refersTo held name
  | .queryWriter settings =>
    refersTo "(params) => qs.stringify(params, " name || refersTo (Json.ascii (.obj settings)) name
  | .call callee args => refersTo callee name || anyMentions name args

/-- Whether one of the texts that an entry is written with refers to the name. -/
def Entry.mentions (name : String) : Entry → Bool
  | .shorthand held => refersTo held name
  | .property key value => refersTo (literalKey key) name || value.mentions name
  | .spread value => value.mentions name

/-- Whether one of the expressions mentions the name. -/
def anyMentions (name : String) : List Expr → Bool
  | [] => false
  | e :: es => e.mentions name || anyMentions name es

/-- Whether one of the entries mentions the name. -/
def anyEntryMentions (name : String) : List Entry → Bool
  | [] => false
  | e :: es => e.mentions name || anyEntryMentions name es

end

variable {name : String}

namespace Expr

@[simp] theorem mentions_name (code : String) :
    (Expr.name code).mentions name = refersTo code name := rfl

@[simp] theorem mentions_optionalMember (value member : String) :
    (Expr.optionalMember value member).mentions name =
      (refersTo value name || refersTo member name) := rfl

@[simp] theorem mentions_quoted (text : String) :
    (Expr.quoted text).mentions name = refersTo text name := rfl

@[simp] theorem mentions_template (text : String) :
    (Expr.template text).mentions name = refersTo text name := rfl

@[simp] theorem mentions_literal (value : Json) :
    (Expr.literal value).mentions name = refersTo (Code.literal value) name := rfl

@[simp] theorem mentions_whenSet (held : String) :
    (Expr.whenSet held).mentions name = refersTo held name := rfl

@[simp] theorem mentions_queryWriter (settings : Json.Fields) :
    (Expr.queryWriter settings).mentions name =
      (refersTo "(params) => qs.stringify(params, " name ||
        refersTo (Json.ascii (.obj settings)) name) := rfl

end Expr

namespace Entry

@[simp] theorem mentions_shorthand (held : String) :
    (Entry.shorthand held).mentions name = refersTo held name := rfl

@[simp] theorem mentions_property (key : String) (value : Expr) :
    (Entry.property key value).mentions name =
      (refersTo (literalKey key) name || value.mentions name) := rfl

@[simp] theorem mentions_spread (value : Expr) :
    (Entry.spread value).mentions name = value.mentions name := rfl

end Entry

theorem anyMentions_eq (args : List Expr) : anyMentions name args = args.any (·.mentions name) := by
  induction args with
  | nil => rfl
  | cons e es ih => rw [anyMentions, ih, List.any_cons]

theorem anyEntryMentions_eq (entries : List Entry) :
    anyEntryMentions name entries = entries.any (·.mentions name) := by
  induction entries with
  | nil => rfl
  | cons e es ih => rw [anyEntryMentions, ih, List.any_cons]

@[simp] theorem Expr.mentions_object (layout : Layout) (entries : List Entry) :
    (Expr.object layout entries).mentions name = entries.any (·.mentions name) :=
  anyEntryMentions_eq entries

@[simp] theorem Expr.mentions_call (callee : String) (args : List Expr) :
    (Expr.call callee args).mentions name =
      (refersTo callee name || args.any (·.mentions name)) :=
  congrArg (refersTo callee name || ·) (anyMentions_eq args)

theorem refersTo_braces (hn : IsPlainName name) (layout : Layout) (entries : List String) :
    refersTo (braces layout entries) name = entries.any (refersTo · name) := by
  cases layout <;>
    rw [braces, refersTo_append_mark hn (by decide), refersTo_mark_append hn (by decide),
      refersTo_commaList hn]

mutual

/-- The text of an expression refers to the names that the expression mentions. -/
theorem Expr.refersTo_render (hn : IsPlainName name) :
    ∀ e : Expr, refersTo e.render name = e.mentions name
  | .name _ => rfl
  | .literal _ => rfl
  | .optionalMember value member => by
    show refersTo (value ++ "?." ++ member) name = (refersTo value name || refersTo member name)
    rw [refersTo_append_mark_append hn (by decide)]
  | .quoted text => by
    show refersTo ("'" ++ text ++ "'") name = refersTo text name
    rw [refersTo_append_mark hn (by decide), refersTo_mark_append hn (by decide)]
  | .template text => by
    show refersTo ("`" ++ text ++ "`") name = refersTo text name
    rw [refersTo_append_mark hn (by decide), refersTo_mark_append hn (by decide)]
  | .object layout entries => by
    show refersTo (braces layout (renderEntries entries)) name = anyEntryMentions name entries
    rw [refersTo_braces hn, refersTo_renderEntries hn]
  | .whenSet held => by
    show refersTo ("(" ++ held ++ " ? \x7b " ++ held ++ " \x7d : \x7b\x7d)") name =
      refersTo held name
    rw [refersTo_append_mark hn (by decide), refersTo_append_mark_append hn (by decide),
      refersTo_mark_append hn (by decide), Bool.or_self]
  | .queryWriter settings => by
    show refersTo ("(params) => qs.stringify(params, " ++ Json.ascii (.obj settings) ++ ")") name =
      (Expr.queryWriter settings).mentions name
    rw [refersTo_between hn (by decide) (by decide), Expr.mentions_queryWriter]
  | .call callee args => by
    show refersTo (callee ++ "(" ++ Text.commaList (renderAll args) ++ ")") name =
      (refersTo callee name || anyMentions name args)
    rw [refersTo_append_mark hn (by decide), refersTo_append_mark_append hn (by decide),
      refersTo_commaList hn, refersTo_renderAll hn]

theorem Entry.refersTo_render (hn : IsPlainName name) :
    ∀ e : Entry, refersTo e.render name = e.mentions name
  | .shorthand _ => rfl
  | .property key value => by
    show refersTo (literalKey key ++ ": " ++ value.render) name =
      (refersTo (literalKey key) name || value.mentions name)
    rw [refersTo_append_mark_append hn (by decide), Expr.refersTo_render hn value]
  | .spread value => by
    show refersTo ("..." ++ value.render) name = value.mentions name
    rw [refersTo_mark_append hn (by decide), Expr.refersTo_render hn value]

theorem refersTo_renderAll (hn : IsPlainName name) :
    ∀ args : List Expr, (renderAll args).any (refersTo · name) = anyMentions name args
  | [] => rfl
  | e :: es => by
    show (refersTo e.render name || (renderAll es).any (refersTo · name)) =
      (e.mentions name || anyMentions name es)
    rw [Expr.refersTo_render hn e, refersTo_renderAll hn es]

theorem refersTo_renderEntries (hn : IsPlainName name) :
    ∀ entries : List Entry,
      (renderEntries entries).any (refersTo · name) = anyEntryMentions name entries
  | [] => rfl
  | e :: es => by
    show (refersTo e.render name || (renderEntries es).any (refersTo · name)) =
      (e.mentions name || anyEntryMentions name es)
    rw [Entry.refersTo_render hn e, refersTo_renderEntries hn es]

end

theorem refersTo_renderArgs (hn : IsPlainName name) (args : List Expr) :
    refersTo (renderArgs args) name = args.any (·.mentions name) := by
  rw [renderArgs, refersTo_commaList hn, refersTo_renderAll hn, anyMentions_eq]

end Code

end RequestGen
