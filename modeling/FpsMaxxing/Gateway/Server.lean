import FpsMaxxing.Host.ControlPlane

/-! The gateway: JSON-RPC requests, one a line, over a control plane. -/

namespace FpsMaxxing

open Effects Serde

inductive Line
  | unreadable (error : String)
  | malformed (error : String)
  | json (request : Value)

inductive GatewayError
  | controlPlane (error : ControlPlaneError)
  | io (error : String)
  deriving DecidableEq

structure Texts where
  -- `to_string`; the fields of an object in the order they are listed
  render : Value → String
  refusal : Value → String

def LifecycleResult.fields (result : LifecycleResult) : Value := .object
  [("provider_id", toValue result.providerId), ("preview", toValue result.preview),
    ("verified", toValue result.verified), ("rolled_back", toValue result.rolledBack)]

def CapabilityDescriptor.fields (capability : CapabilityDescriptor) : Value := .object
  [("id", toValue capability.id), ("description", toValue capability.description),
    ("risk", toValue capability.risk), ("persistence", toValue capability.persistence),
    ("input_schema", capability.inputSchema)]

def ProviderManifest.fields (manifest : ProviderManifest) : Value := .object
  [("id", toValue manifest.id), ("protocol_version", toValue manifest.protocolVersion),
    ("targets", toValue manifest.targets),
    ("capabilities", .array (manifest.capabilities.map CapabilityDescriptor.fields))]

namespace Gateway

def content (text : String) : Value :=
  .array [.object [("text", .string text), ("type", .string "text")]]

def success (text : String) : Value := .object [("content", content text)]

def failure (message : String) : Value :=
  .object [("content", content message), ("isError", .bool true)]

abbrev Refusal := Number × String

def parseError : Number := .negInt 32699
def invalidRequest : Number := .negInt 32599
def methodNotFound : Number := .negInt 32600
def invalidParams : Number := .negInt 32601

def lifecycleRequest (arguments : Value) : Value := .object
  [("capability_id", .string "mock.value"),
    ("lease_seconds", (arguments.get "lease_seconds").getD .null),
    ("parameters", .object [("value", (arguments.get "value").getD .null)])]

variable (texts : Texts) (plane : ControlPlane)

def runMockLifecycle (arguments : Value) : Program Calls (Except Refusal Value) :=
  match (fromValue (lifecycleRequest arguments) : Option ChangeRequest) with
  | none => return .error (invalidParams,
      "invalid lifecycle arguments: " ++ texts.refusal (lifecycleRequest arguments))
  | some request => do
    match ← (plane.runLifecycle request).run with
    | .ok result => return .ok (success (texts.render result.fields))
    | .error error => return .ok (failure error.text)

def callTool (params : Value) : Program Calls (Except Refusal Value) :=
  match params.get "name" >>= Value.asStr with
  | some "fpsmaxxing.capabilities" => return .ok (success (texts.render plane.manifest.fields))
  | some "fpsmaxxing.run_mock_lifecycle" =>
    match params.get "arguments" with
    | none => return .error (invalidParams, "missing tool arguments")
    | some arguments => runMockLifecycle texts plane arguments
  | some name => return .error (invalidParams, "unknown tool: " ++ name)
  | none => return .error (invalidParams, "missing tool name")

def serverInfo : Value := .object
  [("capabilities", .object [("tools", .object [])]),
    ("protocolVersion", .string "2025-03-26"),
    ("serverInfo", .object
      [("name", .string "fpsmaxxing-gateway"), ("version", .string "0.1.0")])]

def integerBetween (minimum maximum : UInt64) : Value := .object
  [("maximum", toValue maximum), ("minimum", toValue minimum), ("type", .string "integer")]

def tools : Value := .object [("tools", .array
  [.object
    [("description", .string "Discover typed, policy-approved capabilities"),
      ("inputSchema", .object [("additionalProperties", .bool false), ("type", .string "object")]),
      ("name", .string "fpsmaxxing.capabilities")],
  .object
    [("description",
        .string "Run snapshot, preview, apply, verify, and rollback for mock.value"),
      ("inputSchema", .object
        [("additionalProperties", .bool false),
          ("properties", .object
            [("lease_seconds", integerBetween 1 300), ("value", integerBetween 0 100)]),
          ("required", .array [.string "value", .string "lease_seconds"]),
          ("type", .string "object")]),
      ("name", .string "fpsmaxxing.run_mock_lifecycle")]])]

def answer (id : Value) : Except Refusal Value → Value
  | .ok result => .object [("id", id), ("jsonrpc", .string "2.0"), ("result", result)]
  | .error (code, message) => .object
    [("error", .object [("code", .number code), ("message", .string message)]), ("id", id),
      ("jsonrpc", .string "2.0")]

def callMethod (request : Value) : Program Calls (Except Refusal Value) :=
  match request.get "method" >>= Value.asStr with
  | some "initialize" => return .ok serverInfo
  | some "tools/list" => return .ok tools
  | some "tools/call" => callTool texts plane ((request.get "params").getD .null)
  | some method => return .error (methodNotFound, "method not found: " ++ method)
  | none => return .error (invalidRequest, "missing MCP method")

def dispatch (request : Value) : Program Calls (Option Value) :=
  match request.get "id" with
  | none => return none
  | some id => (fun result => some (answer id result)) <$> callMethod texts plane request

/-- The responses written, and how the session ends. A writer that fails cuts a session short. -/
def serve : List Line → Program Calls (List Value × Except GatewayError Unit)
  | [] => return ([], .ok ())
  | .unreadable error :: _ => return ([], .error (.io error))
  | .malformed error :: lines => do
    let (responses, result) ← serve lines
    return (answer .null (.error (parseError, "parse error: " ++ error)) :: responses, result)
  | .json request :: lines => do
    let response ← dispatch texts plane request
    let (responses, result) ← serve lines
    return (response.toList ++ responses, result)

def run (os : String) (lines : List Line) :
    Program Calls (List Value × Except GatewayError Unit) := do
  match ← (plane.opens os).run with
  | .error error => return ([], .error (.controlPlane error))
  | .ok () => serve texts plane lines

end Gateway

end FpsMaxxing
