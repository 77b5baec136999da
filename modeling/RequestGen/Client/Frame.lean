import RequestGen.Client.ResultTable
import RequestGen.Naming.Sanitize
import RequestGen.Output.Basic
import RequestGen.Text.Pieces

/-! # Headers and footers

The header of a group declares the helper types that its functions refer to and, in the factory
style, opens the factory. The footer closes the factory and declares the result types. -/

namespace RequestGen

/-- The name of the factory of a group. -/
def factoryTitle (title : String) : String := s!"get{Naming.pascal (Naming.clean title)}"

/-- What a header depends on. -/
structure HeaderInput where
  title : String
  /-- Whether some function takes request options. -/
  takesOptions : Bool := true
  hasMutator : Bool := false
  /-- Whether the functions stand at top level. -/
  topLevel : Bool := false
  output : OutputConfig := {}
  /-- The generated functions. -/
  code : String := ""

/-- What a footer depends on. -/
structure FooterInput where
  operationNames : List String
  title : String
  topLevel : Bool := false
  hasMutator : Bool := false
  hasAwaitedType : Bool := true

/-- The type of a mutator's second parameter. -/
def secondParameterType : String :=
  "type SecondParameter<T extends (...args: never) => unknown> = Parameters<T>[1];\n\n"

/-- The status codes of each hundred. -/
def statusHundreds : List (Nat × List Nat) :=
  [(1, [100, 101, 102, 103]),
    (2, [200, 201, 202, 203, 204, 205, 206, 207]),
    (3, [300, 301, 302, 303, 304, 305, 307, 308]),
    (4, [400, 401, 402, 403, 404, 405, 406, 407, 408, 409, 410, 411, 412, 413, 414, 415, 416, 417,
      418, 419, 420, 421, 422, 423, 424, 426, 428, 429, 431, 451]),
    (5, [500, 501, 502, 503, 504, 505, 507, 511])]

/-- Alternatives of a union type. -/
def unionOf (types : List String) : String := String.intercalate " | " types

/-- The types of the status codes of each hundred, and of all. -/
def statusTypes : String :=
  let hundred : Nat × List Nat → String := fun (first, codes) =>
    s!"type HTTPStatusCode{first}xx = {unionOf (codes.map toString)};\n"
  let all := unionOf (statusHundreds.map fun (first, _) => s!"HTTPStatusCode{first}xx")
  String.join (statusHundreds.map hundred) ++ s!"type HTTPStatusCodes = {all};\n\n"

namespace HeaderInput

variable (h : HeaderInput)

/-- The helper type for mutators, if the group needs it. -/
def secondParameter : String :=
  if h.takesOptions && h.hasMutator then secondParameterType else ""

/-- The header of a group over axios. -/
def axiosHeader : String :=
  h.secondParameter ++ if h.topLevel then "" else s!"export const {h.title} = () => \x7b\n"

/-- The header of a group over fetch. The status types are there if some function names all of
them. -/
def fetchHeader : String :=
  (if Text.occursIn "HTTPStatusCodes".toList h.code.toList then statusTypes else "") ++
    h.secondParameter

/-- What the hook style adds for the client: only groups over fetch need a header of their own. -/
def hookHeader : String :=
  if h.output.httpClient = .fetch then h.fetchHeader else ""

end HeaderInput

/-- `Awaited` for languages that lack it. -/
def awaitedTypes : String :=
  "\ntype AwaitedInput<T> = PromiseLike<T> | T;\n\n" ++
    "type Awaited<O> = O extends AwaitedInput<infer T> ? T : never;\n"

namespace FooterInput

variable (f : FooterInput)

/-- The footer of a group over axios, with the declarations of its result types. -/
def axiosFooter (declarations : List String) : String :=
  (if f.topLevel then "" else s!"  return \x7b {Text.commaList f.operationNames} \x7d;\n\x7d;\n") ++
    (if f.hasMutator && !f.hasAwaitedType then awaitedTypes else "") ++
    String.join (declarations.map fun d => s!"\n{d}\n")

/-- The title that result types refer to: that of the factory, if there is one. -/
def resultTitle : Option String := if f.topLevel then none else some f.title

end FooterInput

namespace Style

/-- Whether the functions stand at top level: always in the style of that name. -/
def topLevel (style : Style) (given : Bool) : Bool := style = functions || given

/-- The header of a group. -/
def header (style : Style) (h : HeaderInput) : String :=
  match style with
  | swr =>
    if h.output.httpClient = .fetch then h.hookHeader
    else HeaderInput.axiosHeader { h with topLevel := true }
  | _ => HeaderInput.axiosHeader { h with topLevel := style.topLevel h.topLevel }

/-- The footer of a group, and the table without the results that it declares. -/
def footer (style : Style) (f : FooterInput) (t : ResultTable) : String × ResultTable :=
  match style with
  | swr => ("", t)
  | _ =>
    let f := { f with topLevel := style.topLevel f.topLevel }
    let (declarations, t) := ResultTable.render f.resultTitle f.operationNames t
    (f.axiosFooter declarations, t)

end Style

end RequestGen
