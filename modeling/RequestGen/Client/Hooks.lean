import RequestGen.Output.Basic
import RequestGen.Request.Fetch

/-! # Types around hooks

A layer of hooks wraps the generated functions. These are the texts with which it speaks of the
request options and of the types of results and errors. A mutator decides them where there is one;
else they are those of axios or, for any other client, those of fetch. -/

namespace RequestGen

/-- The transport of an operation. -/
inductive Transport where
  | axios
  | fetch
  | mutator
deriving DecidableEq

namespace Transport

def name : Transport → String
  | axios => "axios"
  | fetch => "fetch"
  | mutator => "mutator"

/-- The transport over a client. Fetch serves mutators itself, so a mutator wins over axios only. -/
def resolve (client : HttpClient) (mutator : Option Mutator) : Transport :=
  if client = .fetch then fetch else if mutator.isSome then Transport.mutator else axios

end Transport

namespace Hook

/-- The first text for axios, the second for any other client, and with a mutator the third if it
takes request options. -/
def choose (client : HttpClient) (mutator : Option Mutator) (axios fetch : String)
    (request : Mutator → String) : String :=
  match mutator with
  | none => if client = .axios then axios else fetch
  | some m => if m.hasSecondArg then request m else ""

variable (client : HttpClient) (mutator : Option Mutator)

/-- The hook's parameter for request options. -/
def optionsParam : String :=
  choose client mutator "axios?: AxiosRequestConfig" "fetch?: RequestInit"
    fun m => s!"request?: SecondParameter<typeof {m.name}>"

/-- The binding of the request options among the hook's options. -/
def optionsBinding : String :=
  choose client mutator "axios: axiosOptions" "fetch: fetchOptions"
    fun _ => "request: requestOptions"

/-- The identifier that is passed on to the request function. -/
def optionsName : String :=
  choose client mutator "axiosOptions" "fetchOptions" fun _ => "requestOptions"

/-- The type of the request options of a mutation. -/
def mutationOptionsType : String :=
  choose client mutator "AxiosRequestConfig" "RequestInit"
    fun m => s!"SecondParameter<typeof {m.name}>"

/-- The type of the errors that a hook reports. -/
def errorType (response : Response) : String :=
  match mutator with
  | some m => if m.hasErrorType then s!"ErrorType<{response.errorType}>" else response.errorType
  | none =>
    let wrapper := if client = .axios then "AxiosError" else "Promise"
    s!"{wrapper}<{response.errorType}>"

/-- The type that a mutation's fetcher returns. -/
def mutationType (response : Response) (includeHttpResponse : Bool) (operationName : String) :
    String :=
  if client = .fetch then
    s!"Promise<{Operation.fetchResponseType includeHttpResponse response.success operationName}>"
  else if mutator.isSome then s!"Promise<{response.successType}>"
  else s!"Promise<AxiosResponse<{response.successType}>>"

end Hook

end RequestGen
