import Mathlib.Logic.Basic
import RequestGen.Proofs.Code.Tokens
import RequestGen.Proofs.Request.LiteralOptions

/-! # The body that a call sends

A call sends the body as it is, under the name that holds it in the function, or what one statement
before the call encodes it to. The two never mix: there is an encoding statement exactly if the call
sends what it is to declare, and only a body that is sent as it is leaves the fields of a single
request in `data` (`Endpoint.sendsBody_declared_iff`).

A statement that comes from the user's own builder declares the encoded payload in any case. One
that comes with the body is written for the body's own identifier, and a single request has that
exchanged for `request` wherever it occurs, in the middle of other names too. So the payload stays
declared only if the identifier of the body occurs neither in the keyword nor in the payload's
name. -/

namespace RequestGen

open Code (Expr Entry Declares)

/-! ### What a function sends and prepares -/

/-- The code that an entry called `data` holds. -/
def Code.Entry.data? : Entry → Option String
  | .property key (.name code) => if key = "data" then some code else none
  | _ => none

/-- The code of the body among the arguments of a call that carries one: the argument after the URL,
or the entry `data` of an object. -/
def bodyArgument? : List Expr → Option String
  | .template _ :: .name code :: _ => some code
  | args => args.findSome? fun
    | .object _ entries => entries.findSome? Entry.data?
    | _ => none

/-- The code of the body that a function sends. -/
def RequestFunction.sentBody? (f : RequestFunction) : Option String := bodyArgument? f.sendingArgs

/-- The code of a statement that encodes the body. -/
def Statement.encoding? : Statement → Option String
  | .encode code => some code
  | _ => none

/-- The codes of the statements that encode the body. -/
def RequestFunction.encodings (f : RequestFunction) : List String :=
  f.statements.filterMap Statement.encoding?

/-- Whether a statement leaves the fields of a request that it does not name in `data`. -/
def Statement.takesRest : Statement → Bool
  | .destructure _ rest => rest
  | _ => false

def RequestFunction.takesRest (f : RequestFunction) : Bool := f.statements.any Statement.takesRest

namespace Operation

/-- The user's function that encodes the body. -/
def builder? (op : Operation) : FormEncoding → Option Mutator
  | .formData => op.formData
  | .formUrlEncoded => op.formUrlEncoded

/-- The name that the whole body has in the function of an operation. -/
def bodySource (op : Operation) : String :=
  if op.overrides.singleRequest then "request" else op.body.implementation

/-- The name under which the function of an operation sends a body as it is. -/
def plainBody (op : Operation) : String :=
  if op.overrides.singleRequest then "data" else op.body.implementation

/-- The code that is to declare an encoded payload. -/
def encodingCode (op : Operation) (encoding : FormEncoding) : String :=
  match op.builder? encoding with
  | some builder => s!"const {encoding.identifier} = {builder.name}({op.bodySource});"
  | none => Body.rename (op.body.snippet encoding) op.body.implementation op.bodySource

end Operation

namespace RequestFunction

/-- The function sends the body as it is. -/
structure SendsPlain (f : RequestFunction) (op : Operation) : Prop where
  enabled : op.body.encoding? op.forms = none
  sent : f.sentBody? = some op.plainBody
  encodings : f.encodings = []
  takesRest : f.takesRest = op.overrides.singleRequest

/-- The function sends what its one encoding statement is to declare. -/
structure SendsEncoded (f : RequestFunction) (op : Operation) (encoding : FormEncoding) : Prop where
  enabled : op.body.encoding? op.forms = some encoding
  sent : f.sentBody? = some encoding.identifier
  encodings : f.encodings = [op.encodingCode encoding]
  takesRest : f.takesRest = false

end RequestFunction

theorem FormEncoding.identifier_ne_empty (encoding : FormEncoding) : encoding.identifier ≠ "" := by
  cases encoding <;> decide

/-! ### The body among the arguments -/

section Arguments

variable {route method : String} {body : Body} {forms : FormSupport}

theorem bodyArgument?_axiosArgs {input : ConfigInput} (hc : carriesBody method = true)
    (hp : body.payload forms ≠ "") :
    bodyArgument? (axiosArgs route method body forms input) = some (body.payload forms) := by
  unfold axiosArgs
  simp only [hc, if_true, hp, if_false]
  split <;> rfl

theorem MutatorInput.bodyArgument?_config {m : MutatorInput} (hc : carriesBody m.method = true)
    (hp : m.body.payload m.forms ≠ "") (rest : List Expr) :
    bodyArgument? (m.config :: rest) = some (m.body.payload m.forms) := by
  have hheaders : m.headerEntries.findSome? Entry.data? = none := by
    unfold headerEntries
    split
    · rfl
    · cases m.headers.isSome <;> rfl
  have hdata : m.dataEntries = [.property "data" (.name (m.body.payload m.forms))] := by
    simp [dataEntries, hc, hp]
  have hentries : bodyArgument? (m.config :: rest) = (m.config :: rest).findSome? fun
      | .object _ entries => entries.findSome? Entry.data?
      | _ => none := rfl
  rw [hentries, List.findSome?_cons, config, hdata]
  simp only [List.findSome?_append, hheaders]
  rfl

end Arguments

namespace Operation

variable {op : Operation}

theorem callBody_implementation (hd : op.body.definition ≠ "") :
    op.callBody.implementation = op.plainBody := by
  cases hs : op.overrides.singleRequest <;> simp [callBody, plainBody, hs, hd]

theorem payload_callBody : op.callBody.payload op.forms =
    ((op.body.encoding? op.forms).map FormEncoding.identifier).getD op.callBody.implementation := by
  have hencoding : op.callBody.encoding? op.forms = op.body.encoding? op.forms := by
    unfold callBody
    split <;> rfl
  unfold Body.payload
  rw [hencoding]
  cases op.body.encoding? op.forms <;> rfl

theorem plainBody_ne_empty (hi : op.body.implementation ≠ "") : op.plainBody ≠ "" := by
  unfold plainBody
  split
  · decide
  · exact hi

theorem bodySource_ne_empty (hi : op.body.implementation ≠ "") : op.bodySource ≠ "" := by
  unfold bodySource
  split
  · decide
  · exact hi

theorem payload_callBody_ne_empty (hd : op.body.definition ≠ "")
    (hi : op.body.implementation ≠ "") : op.callBody.payload op.forms ≠ "" := by
  rw [payload_callBody, callBody_implementation hd]
  cases op.body.encoding? op.forms with
  | some encoding => exact encoding.identifier_ne_empty
  | none => exact plainBody_ne_empty hi

/-! ### The encoding statement -/

theorem snippet_ne_empty {encoding : FormEncoding}
    (h : op.body.encoding? op.forms = some encoding) : op.body.snippet encoding ≠ "" := by
  unfold Body.encoding? at h
  split at h
  · next hs =>
    obtain rfl := Option.some.inj h
    simp only [Bool.and_eq_true, decide_eq_true_eq] at hs
    exact hs.2
  · split at h
    · next hs =>
      obtain rfl := Option.some.inj h
      simp only [Bool.and_eq_true, decide_eq_true_eq] at hs
      exact hs.2
    · exact nomatch h

theorem bodyForm_of_none (h : op.body.encoding? op.forms = none) (single : Bool) :
    op.bodyForm single = "" := by
  simp only [bodyForm, Body.encode, h]

theorem bodyForm_of_some (hd : op.body.definition ≠ "") {encoding : FormEncoding}
    (h : op.body.encoding? op.forms = some encoding) :
    op.bodyForm op.overrides.singleRequest = op.encodingCode encoding := by
  unfold bodyForm Body.encode encodingCode
  simp only [h]
  have hname : decide (op.body.definition ≠ "") = true := decide_eq_true hd
  cases hs : op.overrides.singleRequest <;>
    simp only [bodySource, hs, hname, Bool.false_and, Bool.true_and, Bool.false_eq_true, if_true,
      if_false] <;> cases encoding <;> rfl

theorem encodingCode_ne_empty (hi : Naming.isIdentifierText op.body.implementation.toList = true)
    {encoding : FormEncoding} (h : op.body.encoding? op.forms = some encoding) :
    op.encodingCode encoding ≠ "" := by
  have hown := Code.isRun_of_isIdentifierText hi
  have hsnippet : (op.body.snippet encoding).toList ≠ [] := fun hs =>
    snippet_ne_empty h (String.toList_inj.mp hs)
  unfold encodingCode
  split
  · exact fun hcode => absurd (String.append_eq_empty_iff.mp hcode).2 (by decide)
  · unfold Body.rename
    split
    · exact snippet_ne_empty h
    · have hsource : op.bodySource.toList ≠ [] := fun hs =>
        bodySource_ne_empty (fun he => hown.1 (he ▸ rfl)) (String.toList_inj.mp hs)
      intro hcode
      have hreplaced := congrArg String.toList hcode
      rw [Text.replaceText, String.toList_ofList] at hreplaced
      exact Text.replace_ne_nil hsource hsnippet hreplaced

/-- The encoded payload is declared by the user's builder, and by the body's own statements if these
declare it and no exchange of names touches the declaration. -/
theorem declares_encodingCode_iff
    (hi : Naming.isIdentifierText op.body.implementation.toList = true) (encoding : FormEncoding) :
    Declares encoding.identifier (op.encodingCode encoding) ↔
      (op.builder? encoding).isSome = true ∨
        Declares encoding.identifier (op.body.snippet encoding) ∧
          (op.overrides.singleRequest = true →
            ¬ op.body.implementation.toList <:+: "const".toList ∧
              ¬ op.body.implementation.toList <:+: encoding.identifier.toList) := by
  unfold encodingCode
  cases hb : op.builder? encoding with
  | some builder =>
    refine iff_of_true ?_ (.inl rfl)
    have hrun : Code.IsRun encoding.identifier.toList := by cases encoding <;> decide
    have hcode := Code.declares_const hrun (builder.name ++ "(" ++ op.bodySource ++ ");")
    rw [← String.append_assoc, ← String.append_assoc, ← String.append_assoc] at hcode
    exact hcode
  | none =>
    have hown := Code.isRun_of_isIdentifierText hi
    have hne : op.body.implementation ≠ "" := fun he => hown.1 (he ▸ rfl)
    have hfree : ¬ "request".toList <:+: "const".toList ∧
        ¬ "request".toList <:+: encoding.identifier.toList := by
      cases encoding <;> decide
    simp only [Option.isSome_none, Bool.false_eq_true, false_or, Body.rename, hne]
    cases hs : op.overrides.singleRequest with
    | false => simp [bodySource, hs]
    | true =>
      simp only [bodySource, hs, if_true, true_implies]
      split
      · -- a body that is called `request` keeps its name
        next heq => rw [heq, and_iff_left hfree]
      · exact Code.declares_replaceText_iff hown (by decide) hfree.1 hfree.2

end Operation

/-! ### The body of a request function -/

namespace SingleRequest

variable (r : SingleRequest) (bodyForm : String)

theorem encodings_statements :
    (r.statements bodyForm).filterMap Statement.encoding? =
      if bodyForm = "" then [] else [bodyForm] := by
  rw [List.filterMap_eq_flatMap_toList, flatMap_statements rfl]
  simp [Statement.encoding?]

theorem takesRest_statements :
    (r.statements bodyForm).any Statement.takesRest = r.hasDataSpread := by
  have hgather (constant : String) (names : Option (List String)) :
      ((names.map (Statement.gather constant)).toList).any Statement.takesRest = false := by
    cases names <;> rfl
  have hencode : (if bodyForm = "" then [] else [Statement.encode bodyForm]).any
      Statement.takesRest = false := by
    split <;> rfl
  simp only [statements, List.any_append, hencode, hgather, Bool.or_false]
  cases r.hasDataSpread <;> cases r.destructureNames.isEmpty <;> rfl

end SingleRequest

theorem Operation.encodings_encodeStatements (op : Operation) (single : Bool) :
    (op.encodeStatements single).filterMap Statement.encoding? =
      if op.bodyForm single = "" then [] else [op.bodyForm single] := by
  unfold encodeStatements
  split <;> rfl

theorem Operation.takesRest_encodeStatements (op : Operation) (single : Bool) :
    (op.encodeStatements single).any Statement.takesRest = false := by
  unfold encodeStatements
  split <;> rfl

namespace Endpoint

variable {ctx : Context} {e : Endpoint} {exported generic : Bool} {via : Transport}
  {f : RequestFunction}

/-- Over axios and over a mutator a function sends the payload of its body, encodes it by the
statements of its operation, and takes the rest of a single request where nothing is encoded. -/
theorem body_of_requestOver (hv : via ≠ .fetch) (hc : carriesBody e.operation.verb.name = true)
    (hd : e.operation.body.definition ≠ "") (hi : e.operation.body.implementation ≠ "")
    (hf : e.requestOver ctx exported generic via = .ok f) :
    f.sentBody? = some (e.operation.callBody.payload e.operation.forms) ∧
      f.encodings = (if e.operation.bodyForm e.operation.overrides.singleRequest = "" then []
        else [e.operation.bodyForm e.operation.overrides.singleRequest]) ∧
      f.takesRest = (e.operation.overrides.singleRequest && !e.operation.usesForm) := by
  have hp := e.operation.payload_callBody_ne_empty hd hi
  have haxios : bodyArgument? (e.axiosCallArgs ctx) = _ :=
    bodyArgument?_axiosArgs hc hp
  have hmutator (rest : List Expr) : bodyArgument? (e.mutatorConfig ctx :: rest) = _ :=
    MutatorInput.bodyArgument?_config hc hp rest
  have hspread (names : NameTexts) : (SingleRequest.build e names).hasDataSpread =
      !e.operation.usesForm := by
    simp [SingleRequest.build, hd]
  have hrequest (names : NameTexts) : (SingleRequest.build e names).hasRequest = true := by
    simp [SingleRequest.hasRequest, SingleRequest.build, hd]
  cases requestOver_eq_ok_iff.mp hf with
  | fetch => exact absurd rfl hv
  | axiosFlat hs =>
    rw [hs]
    refine ⟨?_, e.operation.encodings_encodeStatements false,
      e.operation.takesRest_encodeStatements false⟩
    rw [RequestFunction.sentBody?, sendingArgs_axiosFlat]
    exact haxios
  | mutatorFlat hm hs =>
    rw [hs]
    refine ⟨?_, e.operation.encodings_encodeStatements false,
      e.operation.takesRest_encodeStatements false⟩
    rw [RequestFunction.sentBody?, sendingArgs_mutatorFlat]
    exact hmutator _
  | @axiosSingle names hs =>
    have hstatements : (e.axiosSingle ctx exported generic (.build e names)).statements =
        (SingleRequest.build e names).statements (e.operation.bodyForm true) := by
      simp only [axiosSingle, hrequest names, if_true]
    rw [hs, RequestFunction.sentBody?, RequestFunction.encodings, RequestFunction.takesRest,
      hstatements, SingleRequest.encodings_statements, SingleRequest.takesRest_statements, hspread]
    refine ⟨?_, rfl, rfl⟩
    rw [sendingArgs_axiosSingle]
    exact haxios
  | @mutatorSingle mutator names hm hs =>
    rw [hs]
    refine ⟨?_, SingleRequest.encodings_statements _ _, ?_⟩
    · rw [RequestFunction.sentBody?, sendingArgs_mutatorSingle]
      exact hmutator _
    · exact (SingleRequest.takesRest_statements _ _).trans (hspread names)

/-- A function over axios or over a mutator comes by the body that it sends in exactly one of two
ways: the body is sent as it is, or one statement encodes it. That statement declares what is sent,
unless it comes with the body and does not declare it itself, or the exchange of names for a single
request hits the declaration. -/
theorem sendsBody_declared_iff (hv : via ≠ .fetch) (hc : carriesBody e.operation.verb.name = true)
    (hd : e.operation.body.definition ≠ "")
    (hi : Naming.isIdentifierText e.operation.body.implementation.toList = true)
    (hf : e.requestOver ctx exported generic via = .ok f) :
    Xor (f.SendsPlain e.operation) (∃ encoding, f.SendsEncoded e.operation encoding) ∧
      ∀ encoding, f.SendsEncoded e.operation encoding →
        ((∃ code ∈ f.encodings, Declares encoding.identifier code) ↔
          (e.operation.builder? encoding).isSome = true ∨
            Declares encoding.identifier (e.operation.body.snippet encoding) ∧
              (e.operation.overrides.singleRequest = true →
                ¬ e.operation.body.implementation.toList <:+: "const".toList ∧
                  ¬ e.operation.body.implementation.toList <:+: encoding.identifier.toList)) := by
  have hne : e.operation.body.implementation ≠ "" := fun he =>
    (Code.isRun_of_isIdentifierText hi).1 (he ▸ rfl)
  obtain ⟨hsent, hencodings, hrest⟩ := body_of_requestOver hv hc hd hne hf
  rw [Operation.payload_callBody, Operation.callBody_implementation hd] at hsent
  rw [Operation.usesForm] at hrest
  constructor
  · cases h : e.operation.body.encoding? e.operation.forms with
    | none =>
      rw [h] at hsent hrest
      rw [Operation.bodyForm_of_none h] at hencodings
      have hplain : f.SendsPlain e.operation := ⟨h, hsent, hencodings, by simpa using hrest⟩
      exact .inl ⟨hplain, fun ⟨_, hencoded⟩ => nomatch h.symm.trans hencoded.enabled⟩
    | some encoding =>
      rw [h] at hsent hrest
      rw [Operation.bodyForm_of_some hd h, if_neg (Operation.encodingCode_ne_empty hi h)]
        at hencodings
      have hencoded : f.SendsEncoded e.operation encoding :=
        ⟨h, hsent, hencodings, by simpa using hrest⟩
      exact .inr ⟨⟨encoding, hencoded⟩, fun hplain => nomatch h.symm.trans hplain.enabled⟩
  · intro encoding hencoded
    rw [hencoded.encodings, ← Operation.declares_encodingCode_iff hi]
    simp

end Endpoint

/-- An operation with a form as its body, which is called `form`. -/
def uploadForm : Endpoint where
  operation := {
    verb := .post
    operationName := "uploadForm"
    body := {
      definition := "Form"
      implementation := "form"
      formData := some "const formData = new FormData();\nformData.append('name', form.name);" }
    overrides := { singleRequest := true } }
  route := "/forms"
  pathRoute := "/forms"

/-- The exchange of `form` for `request` renames the payload too, and what is sent is declared
nowhere. -/
theorem formData_undeclared_uploadForm :
    ∃ f, uploadForm.requestOver {} false true .axios = .ok f ∧ f.sentBody? = some "formData" ∧
      f.encodings =
        ["const requestData = new FormData();\nrequestData.append('name', request.name);"] ∧
      ¬ ∃ code ∈ f.encodings, Declares "formData" code := by
  have hread : ParameterNames.read {} uploadForm = .ok { query := [], header := [], path := [] } :=
    rfl
  have hf : uploadForm.requestOver {} false true .axios = .ok _ :=
    (Endpoint.Sender.axiosSingle rfl hread).requestOver_eq
  obtain ⟨hways, hdeclared⟩ :=
    Endpoint.sendsBody_declared_iff (by decide) (by decide) (by decide) (by decide) hf
  have henabled : uploadForm.operation.body.encoding? uploadForm.operation.forms =
      some .formData := by decide
  rcases hways with ⟨hplain, -⟩ | ⟨⟨encoding, hencoded⟩, -⟩
  · exact nomatch henabled.symm.trans hplain.enabled
  · obtain rfl := Option.some.inj (henabled.symm.trans hencoded.enabled)
    have hcode : uploadForm.operation.encodingCode .formData =
        "const requestData = new FormData();\nrequestData.append('name', request.name);" := by
      decide
    refine ⟨_, hf, hencoded.sent, hcode ▸ hencoded.encodings, fun hdeclares => ?_⟩
    rcases (hdeclared _ hencoded).mp hdeclares with hbuilder | ⟨-, hfree⟩
    · exact nomatch hbuilder
    · exact (hfree rfl).2 (by decide)

end RequestGen
