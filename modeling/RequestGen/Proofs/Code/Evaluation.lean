import RequestGen.Code.Expr
import RequestGen.Proofs.Code.QuotedTexts

/-! # What expressions come to

`Expr.eval?` evaluates an expression in a scope, which gives names, calls and any other code their
values. An object literal takes its entries in order: a spread copies the own properties of a value,
and of two entries that set one property the later counts (`ownProperties_append`). It comes to
nothing where the code is none: a text in quotes may not go over a line end, and a literal may not
name its prototype twice. For document values `isWritable` tells these apart
(`isSome_literalValue?`). -/

namespace RequestGen.Code

/-! ### Values -/

/-- What an expression comes to. -/
inductive Value where
  | undefined
  | null
  | text (s : String)
  /-- A number, a flag or a function, and whether it counts as true. -/
  | atom (code : String) (isTruthy : Bool)
  | list (items : List Value)
  /-- An object that keeps headers, and not as properties. -/
  | headers (entries : List (String × String))
  /-- Any other object, told by its own properties. -/
  | object (own : String → Option Value)

namespace Value

/-- The item at a position, which is written as a decimal number. -/
def itemAt (items : List Value) (key : String) : Option Value :=
  (items.zipIdx.find? fun item => toString item.2 = key).map Prod.fst

/-- The value of an own property. A text has its characters, by their positions. -/
def own : Value → String → Option Value
  | text s => itemAt (s.toList.map fun c => text (String.singleton c))
  | list items => itemAt items
  | object own => own
  | _ => fun _ => none

/-- The value of `value?.name`. -/
def member (value : Value) (name : String) : Value := (value.own name).getD undefined

def isTruthy : Value → Bool
  | undefined | null => false
  | text s => s ≠ ""
  | atom _ isTruthy => isTruthy
  | _ => true

end Value

/-! ### Object literals -/

/-- An entry of an object literal whose expressions are evaluated. -/
inductive Part where
  /-- `name` -/
  | shorthand (name : String) (value : Value)
  /-- `name: value` -/
  | property (name : String) (value : Value)
  /-- `...value` -/
  | spread (value : Value)

namespace Part

/-- Whether the part sets the prototype of the object in place of a property. -/
def setsPrototype : Part → Bool
  | property name _ => name = "__proto__"
  | _ => false

/-- The value that the part gives to an own property. -/
def get? : Part → String → Option Value
  | shorthand name value, key => if key = name then some value else none
  | property name value, key =>
    if key = name ∧ name ≠ "__proto__" then some value else none
  | spread value, key => value.own key

end Part

/-- The own properties of an object literal. A later part counts more. -/
def ownProperties : List Part → String → Option Value
  | [], _ => none
  | part :: parts, key => (ownProperties parts key).or (part.get? key)

/-- The object of a literal, unless two parts set its prototype. -/
def objectOf? (parts : List Part) : Option Value :=
  if parts.countP Part.setsPrototype ≤ 1 then some (.object (ownProperties parts)) else none

theorem ownProperties_append (front back : List Part) (key : String) :
    ownProperties (front ++ back) key =
      (ownProperties back key).or (ownProperties front key) := by
  induction front with
  | nil => simp [ownProperties]
  | cons part front ih => simp [ownProperties, ih, Option.or_assoc]

theorem ownProperties_eq_none {parts : List Part} {key : String}
    (h : ∀ part ∈ parts, part.get? key = none) : ownProperties parts key = none := by
  induction parts with
  | nil => rfl
  | cons part parts ih =>
    rw [ownProperties, ih fun other hother => h other (List.mem_cons_of_mem part hother),
      h part List.mem_cons_self]
    rfl

/-! ### Document values -/

/-- What names, calls and other code come to. -/
structure Scope where
  value : String → Value
  call : String → List Value → Value

variable (scope : Scope)

mutual

/-- The value of a document value that is written as a literal. -/
def literalValue? : Json → Option Value
  | .obj fields => (literalParts? fields).bind objectOf?
  | .arr items => (literalItems? items).map .list
  | .str s => (readText (quotedText s)).map .text
  | .null => some .null
  | value => some (scope.value value.ascii)

def literalItems? : List Json → Option (List Value)
  | [] => some []
  | item :: items => do return (← literalValue? item) :: (← literalItems? items)

def literalParts? : List (String × Json) → Option (List Part)
  | [] => some []
  | (key, value) :: fields => do
    return .property (← readKey (literalKey key)) (← literalValue? value) ::
      (← literalParts? fields)

end

/-- Whether a field sets the prototype of its object. -/
def namesPrototype (field : String × Json) : Bool :=
  readKey (literalKey field.1) = some "__proto__"

mutual

/-- Whether the value can be written as a literal: no text and no quoted key of it holds a line end,
and no object names its prototype twice. -/
def isWritable : Json → Bool
  | .obj fields => areWritableFields fields && decide (fields.countP namesPrototype ≤ 1)
  | .arr items => areWritable items
  | .str s => !s.toList.any isLineEnd
  | _ => true

def areWritable : List Json → Bool
  | [] => true
  | item :: items => isWritable item && areWritable items

def areWritableFields : List (String × Json) → Bool
  | [] => true
  | (key, value) :: fields =>
    (Naming.isIdentifier key || !key.toList.any isLineEnd) && isWritable value &&
      areWritableFields fields

end

theorem countP_setsPrototype {fields : List (String × Json)} {parts : List Part}
    (h : literalParts? scope fields = some parts) :
    parts.countP Part.setsPrototype = fields.countP namesPrototype := by
  induction fields generalizing parts with
  | nil => rw [← Option.some.inj h]; rfl
  | cons field fields ih =>
    obtain ⟨key, value⟩ := field
    simp only [literalParts?, Option.bind_eq_bind, Option.bind_eq_some_iff, Option.pure_def,
      Option.some.injEq] at h
    obtain ⟨name, hname, v, -, rest, hrest, rfl⟩ := h
    simp [List.countP_cons, ih hrest, Part.setsPrototype, namesPrototype, hname]

mutual

theorem isSome_literalValue? (value : Json) :
    (literalValue? scope value).isSome = isWritable value := by
  cases value with
  | obj fields =>
    have hfields := isSome_literalParts? fields
    rw [literalValue?, isWritable, ← hfields]
    cases h : literalParts? scope fields with
    | none => rfl
    | some parts =>
      rw [← countP_setsPrototype scope h, Option.bind_some, objectOf?]
      split <;> simp [*]
  | arr items => rw [literalValue?, isWritable, Option.isSome_map, isSome_literalItems? items]
  | str s =>
    rw [literalValue?, isWritable, Option.isSome_map, readText_quotedText]
    cases s.toList.any isLineEnd <;> rfl
  | _ => rfl

theorem isSome_literalItems? (items : List Json) :
    (literalItems? scope items).isSome = areWritable items := by
  cases items with
  | nil => rfl
  | cons item items =>
    rw [areWritable, ← isSome_literalValue? item, ← isSome_literalItems? items, literalItems?]
    cases literalValue? scope item <;> cases literalItems? scope items <;> rfl

theorem isSome_literalParts? (fields : List (String × Json)) :
    (literalParts? scope fields).isSome = areWritableFields fields := by
  match fields with
  | [] => rfl
  | (key, value) :: fields =>
    rw [areWritableFields, ← readKey_literalKey_isSome, ← isSome_literalValue? value,
      ← isSome_literalParts? fields, literalParts?]
    cases readKey (literalKey key) <;> cases literalValue? scope value <;>
      cases literalParts? scope fields <;> rfl

end

theorem isWritable_obj_iff {fields : Json.Fields} : isWritable (.obj fields) = true ↔
    ∃ parts, literalParts? scope fields = some parts ∧
      parts.countP Part.setsPrototype ≤ 1 := by
  rw [← isSome_literalValue? scope, literalValue?]
  cases literalParts? scope fields with
  | none => simp
  | some parts => simp [objectOf?]

/-! ### Expressions -/

mutual

/-- The value of an expression in a scope. -/
def Expr.eval? : Expr → Option Value
  | .name code => some (scope.value code)
  | .optionalMember value member => some ((scope.value value).member member)
  | .quoted text => (readText s!"'{text}'").map .text
  | .template text => some (scope.value (Expr.template text).render)
  | .literal value => literalValue? scope value
  | .object _ entries => (parts? entries).bind objectOf?
  | .whenSet name =>
    objectOf? (if (scope.value name).isTruthy then [.shorthand name (scope.value name)] else [])
  | .queryWriter settings => some (.atom (Expr.queryWriter settings).render true)
  | .call callee args => (evalAll? args).map (scope.call callee)

def Entry.part? : Entry → Option Part
  | .shorthand name => some (.shorthand name (scope.value name))
  | .property key value => do return .property (← readKey (literalKey key)) (← value.eval?)
  | .spread value => value.eval?.map .spread

def evalAll? : List Expr → Option (List Value)
  | [] => some []
  | e :: es => do return (← e.eval?) :: (← evalAll? es)

def parts? : List Entry → Option (List Part)
  | [] => some []
  | e :: es => do return (← e.part?) :: (← parts? es)

end

variable {scope}

theorem eval?_quoted {text : String} (h : readText s!"'{text}'" = some text) :
    (Expr.quoted text).eval? scope = some (.text text) := by
  rw [Expr.eval?, h]
  rfl

theorem part?_spread_name (name : String) :
    (Entry.spread (.name name)).part? scope = some (.spread (scope.value name)) := rfl

theorem part?_property {key name : String} {e : Expr} {value : Value}
    (hkey : readKey (literalKey key) = some name) (he : e.eval? scope = some value) :
    (Entry.property key e).part? scope = some (.property name value) := by
  rw [Entry.part?, hkey, he]
  rfl

theorem parts?_cons {entry : Entry} {entries : List Entry} {part : Part} {parts : List Part}
    (hentry : entry.part? scope = some part) (hentries : parts? scope entries = some parts) :
    parts? scope (entry :: entries) = some (part :: parts) := by
  rw [parts?, hentry, hentries]
  rfl

theorem parts?_append (front back : List Entry) :
    parts? scope (front ++ back) =
      (parts? scope front).bind fun parts => (parts? scope back).map (parts ++ ·) := by
  induction front with
  | nil => cases h : parts? scope back <;> simp [parts?, h]
  | cons entry front ih =>
    rw [List.cons_append, parts?, parts?, ih]
    cases entry.part? scope <;> cases parts? scope front <;> cases parts? scope back <;> rfl

theorem parts?_literals (fields : Json.Fields) :
    parts? scope (Entry.literals fields) = literalParts? scope fields := by
  induction fields with
  | nil => rfl
  | cons field fields ih =>
    have hcons : Entry.literals (field :: fields) =
        .property field.1 (.literal field.2) :: Entry.literals fields := rfl
    rw [hcons, parts?, ih, Entry.part?, Expr.eval?, literalParts?]
    cases readKey (literalKey field.1) <;> cases literalValue? scope field.2 <;> rfl

theorem eval?_object {entries : List Entry} {parts : List Part} (layout : Layout)
    (hparts : parts? scope entries = some parts) (hcount : parts.countP Part.setsPrototype = 0) :
    (Expr.object layout entries).eval? scope = some (.object (ownProperties parts)) := by
  rw [Expr.eval?, hparts, Option.bind_some, objectOf?, if_pos (by simp [hcount])]

/-- Entries around others that do not set the prototype of the object leave it to these whether
there is an object. -/
theorem eval?_object_around {before middle after : List Entry} {front back : List Part}
    (layout : Layout) (hbefore : parts? scope before = some front)
    (hafter : parts? scope after = some back) (hfront : front.countP Part.setsPrototype = 0)
    (hback : back.countP Part.setsPrototype = 0) :
    (Expr.object layout (before ++ (middle ++ after))).eval? scope =
      (parts? scope middle).bind fun parts =>
        if parts.countP Part.setsPrototype ≤ 1 then
          some (.object (ownProperties (front ++ (parts ++ back))))
        else none := by
  rw [Expr.eval?, parts?_append, hbefore, Option.bind_some, parts?_append, hafter]
  cases parts? scope middle with
  | none => rfl
  | some parts => simp [objectOf?, List.countP_append, hfront, hback]

end RequestGen.Code
