import RequestGen.Command.Arguments
import RequestGen.Proofs.ListOutcomes

/-! # Command lines for given arguments

Whatever a command line is read as can be asked for again without a file to write
(`exists_words`): each option is given with an equals sign, and the job after a separator. For that
the job must be a path that a text names, and no level be `--`, which stands for none. -/

namespace RequestGen

/-- What is given for an option: a separator where it has no value. -/
def Choice.given {α : Type} (text : α → String) : Choice α → Option String
  | .unset => none
  | .void => some "--"
  | .value a => some (text a)

namespace Arguments

namespace Draft

variable {d d' : Draft} {words : List Word} {o : OptionName} {value : String}

/-- There are words for what is read so far. -/
structure Spelled (d : Draft) : Prop where
  job : ∀ path, d.job = some path → ∃ text, path = .ofText text
  logLevel : d.logLevel ≠ .value "--"

theorem Spelled.clear (h : d.Spelled) (o : OptionName) : (d.clear o).Spelled := by
  cases o
  case logLevel => exact ⟨h.job, nofun⟩
  all_goals exact ⟨h.job, h.logLevel⟩

theorem Spelled.set (h : d.Spelled) (hset : d.set o value = .ok d') : d'.Spelled := by
  unfold Draft.set at hset
  split at hset
  · exact nomatch hset
  · split at hset
    · rw [← Except.ok.inj hset]
      exact h.clear _
    · next hvalue =>
      split at hset
      · split at hset
        · rw [← Except.ok.inj hset]
          exact ⟨h.job, h.logLevel⟩
        · exact nomatch hset
      · rw [← Except.ok.inj hset]
        exact ⟨h.job, fun heq => hvalue (Choice.value.inj heq)⟩
      · rw [← Except.ok.inj hset]
        exact ⟨h.job, h.logLevel⟩

theorem Spelled.takeJob (h : d.Spelled) (text : String) :
    ({ d with job := some (.ofText text) } : Draft).Spelled :=
  ⟨fun _ hjob => ⟨text, (Option.some.inj hjob).symm⟩, h.logLevel⟩

theorem Spelled.leave (h : d.Spelled) (texts : List String) :
    ({ d with extra := d.extra ++ texts } : Draft).Spelled := ⟨h.job, h.logLevel⟩

theorem Spelled.read (h : d.Spelled) (hread : d.read words = .ok d') : d'.Spelled := by
  fun_induction Draft.read d words with
  | case1 => exact Except.ok.inj hread ▸ h
  | case2 | case5 | case6 => exact nomatch hread
  -- a value is read
  | case3 _ _ _ _ ih | case4 _ _ _ _ _ ih =>
    obtain ⟨next, hset, hread⟩ := exists_of_bind_eq_ok hread
    exact ih next (h.set hset) hread
  -- the job is read
  | case8 _ _ _ _ ih | case10 _ _ _ _ ih | case13 _ _ _ _ _ ih => exact ih (h.takeJob _) hread
  -- a word is left
  | case7 _ _ _ ih | case9 _ _ _ _ _ ih | case11 _ _ _ _ _ ih | case12 _ _ _ ih
  | case14 _ _ _ _ _ _ ih => exact ih (h.leave _) hread

end Draft

variable {words : List String} {arguments : Arguments}

theorem spelled_of_parse (h : parse words = .ok arguments) :
    (∃ text, arguments.job = .ofText text) ∧ arguments.logLevel ≠ .value "--" := by
  obtain ⟨read, -, h⟩ := exists_of_bind_eq_ok h
  obtain ⟨d, hread, h⟩ := exists_of_bind_eq_ok h
  have hempty : ({} : Draft).Spelled := ⟨nofun, nofun⟩
  have hspelled := hempty.read hread
  unfold Draft.finish at h
  split at h
  · exact nomatch h
  · next job hjob =>
    split at h
    · obtain rfl := Except.ok.inj h
      exact ⟨hspelled.job job hjob, hspelled.logLevel⟩
    · exact nomatch h

/-! ### Words for arguments -/

/-- The words that give an option a value, none if it is unset. -/
def optionWords (o : OptionName) (given : Option String) : List String :=
  (given.map fun value => o.text ++ "=" ++ value).toList

theorem classify_option {o : OptionName} (ho : o = .client ∨ o = .logLevel) (value : String) :
    Word.classify (o.text ++ "=" ++ value) = .ok (.option o (some value)) := by
  rcases ho with rfl | rfl <;>
    simp [Word.classify, OptionName.text, OptionName.matching, OptionName.all]

theorem ofArguments_optionWords {o : OptionName} (ho : o = .client ∨ o = .logLevel)
    (given : Option String) {rest : List String} {read : List Word}
    (hrest : Word.ofArguments rest = .ok read) :
    Word.ofArguments (optionWords o given ++ rest) =
      .ok ((given.map fun value => Word.option o (some value)).toList ++ read) := by
  cases given with
  | none => exact hrest
  | some value =>
    show (Word.classify (o.text ++ "=" ++ value) >>= _) = _
    rw [classify_option ho]
    show (Word.ofArguments rest >>= _) = _
    rw [hrest]
    rfl

theorem read_style (style : Choice Style) (words : List Word) :
    Draft.read {} (((style.given Style.name).map fun value =>
      Word.option .client (some value)).toList ++ words) = Draft.read { style } words := by
  cases style with
  | unset => rfl
  | void => rfl
  | value style => cases style <;> rfl

theorem read_logLevel (style : Choice Style) {level : Choice String} (hlevel : level ≠ .value "--")
    (words : List Word) :
    Draft.read { style } (((level.given id).map fun value =>
      Word.option .logLevel (some value)).toList ++ words) =
        Draft.read { style, logLevel := level } words := by
  cases level with
  | unset => rfl
  | void => rfl
  | value level =>
    show (Draft.set { style } .logLevel level >>= _) = _
    have hset : Draft.set { style } .logLevel level = .ok { style, logLevel := .value level } :=
      if_neg fun h => hlevel (congrArg _ h)
    rw [hset]
    rfl

/-- The same can be asked for with the text shown instead of written. -/
theorem exists_words (h : parse words = .ok arguments) :
    ∃ other, parse other = .ok { arguments with output := .unset } := by
  obtain ⟨⟨text, hjob⟩, hlevel⟩ := spelled_of_parse h
  refine ⟨optionWords .client (arguments.style.given Style.name) ++
    (optionWords .logLevel (arguments.logLevel.given id) ++ ["--", text]), ?_⟩
  have hjobWords : Word.ofArguments ["--", text] = .ok [.separator, .plain text] := rfl
  have hwords := ofArguments_optionWords (.inl rfl) (arguments.style.given Style.name)
    (ofArguments_optionWords (.inr rfl) (arguments.logLevel.given id) hjobWords)
  unfold parse
  rw [hwords]
  show (Draft.read {} _ >>= _) = _
  rw [read_style, read_logLevel _ hlevel, hjob]
  rfl

end Arguments

end RequestGen
