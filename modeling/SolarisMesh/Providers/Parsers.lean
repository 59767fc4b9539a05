import SolarisMesh.Providers.Framing

/-!
# Response parsers

What the three server-sent event formats make of a frame: the chat completions of OpenAI, the
messages of Anthropic, and OpenAI's responses. A parser keeps the tool calls that are not complete
and the token counts in its state.
-/

namespace SolarisMesh.Providers

open Lib

inductive StopReason where
  | endTurn
  | toolUse
  | maxTokens
  | maxTurns
  deriving DecidableEq, Repr

structure TokenUsage where
  inputTokens : ℕ := 0
  outputTokens : ℕ := 0
  cacheCreationTokens : ℕ := 0
  cacheReadTokens : ℕ := 0
  deriving DecidableEq, Repr

inductive LlmEvent where
  | textDelta (text : String)
  | toolUse (id name : String) (input : Json) (extra : Option Json)
  | thinkingDelta (text : String)
  | thinkingSignature (signature : String)
  | providerMetadata (namespace_ : String) (value : Json)
  | done (stopReason : StopReason) (usage : TokenUsage)
  | error (message : String)
  deriving DecidableEq

namespace LlmEvent

def isDone : LlmEvent → Bool
  | .done _ _ => true
  | _ => false

/-- `Done` and `Error` end a stream of events. -/
def isTerminal : LlmEvent → Bool
  | .done _ _ => true
  | .error _ => true
  | _ => false

end LlmEvent

/-! ## Values of a payload -/

/-- `value[key]`: a member that is not there is null. -/
def field (value : Json) (key : String) : Json := (value.get key).getD .null

/-- `Value::as_u64`: a greater number is kept as a float. -/
def asU64 (value : Json) : Option ℕ := value.asU64.filter (· < 2 ^ 64)

/-- `serde_json::from_str`. -/
def fromStr (text : String) : Option Json := Json.read Ledger.maxNesting text.toList

/-- The input of a tool call; what is no JSON becomes an empty object. -/
def toolInput (arguments : String) : Json := (fromStr arguments).getD (.object [])

def nonEmptyStr (value : Json) : Option String := value.asStr.filter (· ≠ "")

/-! ## Chat completions -/

namespace OpenAi

structure ToolCallAccumulator where
  id : String := ""
  name : String := ""
  arguments : String := ""
  extra : Option Json := none

/-- `generated` counts the call ids that `generate_call_id` has made so far. -/
structure StreamState where
  toolCalls : List ToolCallAccumulator := []
  inputTokens : ℕ := 0
  outputTokens : ℕ := 0
  cacheReadTokens : ℕ := 0
  pendingDone : Option LlmEvent := none
  generated : ℕ := 0

namespace StreamState

def flushDone (state : StreamState) : StreamState × List LlmEvent :=
  match state.pendingDone with
  | none => (state, [])
  | some (.done stopReason _) =>
    ({ state with pendingDone := none },
      [.done stopReason ⟨state.inputTokens, state.outputTokens, 0, state.cacheReadTokens⟩])
  | some other => ({ state with pendingDone := none }, [other])

/-- The calls with one at this index, and the call there updated. -/
def updateTool (state : StreamState) (index : ℕ)
    (update : ToolCallAccumulator → ToolCallAccumulator) : StreamState :=
  let missing := List.replicate (index + 1 - state.toolCalls.length) ({} : ToolCallAccumulator)
  let toolCalls := state.toolCalls ++ missing
  { state with toolCalls := toolCalls.modify index update }

def readUsage (state : StreamState) (json : Json) : StreamState :=
  match json.get "usage" with
  | some usage@(.object _) =>
    let promptTokens := (asU64 (field usage "prompt_tokens")).getD state.inputTokens
    let cacheHit :=
      ((asU64 (field usage "prompt_cache_hit_tokens") <|>
        asU64 (field (field usage "prompt_tokens_details") "cached_tokens")).getD 0).min
          promptTokens
    { state with
      inputTokens := promptTokens
      outputTokens := (asU64 (field usage "completion_tokens")).getD state.outputTokens
      cacheReadTokens := cacheHit }
  | _ => state

def toolDelta (state : StreamState) (tc : Json) : StreamState :=
  let function := field tc "function"
  state.updateTool ((asU64 (field tc "index")).getD 0) fun acc =>
    { id := (field tc "id").asStr.getD acc.id
      name := (nonEmptyStr (field function "name")).getD acc.name
      arguments := acc.arguments ++ (field function "arguments").asStr.getD ""
      extra := (tc.get "extra_content").filter (· ≠ .null) <|> acc.extra }

end StreamState

variable (autoToolId : Bool) (callIds : ℕ → String) (state : StreamState)

def emitToolCall (generated : ℕ) (tc : ToolCallAccumulator) : ℕ × List LlmEvent :=
  let generates := tc.id = "" ∧ autoToolId
  let id := if generates then callIds generated else tc.id
  let metadata := tc.extra.toList.map fun extra =>
    .providerMetadata "openai"
      (.object [("tool_calls", .object [(id, .object [("extra_content", extra)])])])
  (if generates then generated + 1 else generated,
    metadata ++ [.toolUse id tc.name (toolInput tc.arguments) none])

def finishReason (reason : String) : StreamState × List LlmEvent :=
  if reason = "tool_calls" ∨ reason = "stop" then
    if state.toolCalls ≠ [] then
      let (generated, events) :=
        Delimited.gather (emitToolCall autoToolId callIds) state.generated state.toolCalls
      ({ state with
         toolCalls := []
         generated
         pendingDone := some (.done .toolUse {}) }, events)
    else if reason = "stop" then ({ state with pendingDone := some (.done .endTurn {}) }, [])
    else ({ state with pendingDone := some (.done .toolUse {}) }, [])
  else if reason = "length" then ({ state with pendingDone := some (.done .maxTokens {}) }, [])
  else (state, [])

def parseSseChunk (data : String) : StreamState × List LlmEvent :=
  match fromStr data with
  | none => (state, [])
  | some json =>
    let state := state.readUsage json
    match field json "choices" with
    | .array (choice :: _) =>
      let delta := field choice "delta"
      let thinking := (nonEmptyStr (field delta "reasoning_content")).toList.map .thinkingDelta
      let text := (nonEmptyStr (field delta "content")).toList.map .textDelta
      let state :=
        match field delta "tool_calls" with
        | .array toolCalls => toolCalls.foldl StreamState.toolDelta state
        | _ => state
      match (field choice "finish_reason").asStr with
      | none => (state, thinking ++ text)
      | some reason =>
        let (state, finished) := finishReason autoToolId callIds state reason
        (state, thinking ++ text ++ finished)
    | _ => (state, [])

/-- `OpenAiParser::parse_frame`. -/
def parseFrame (frame : Frame) : StreamState × List LlmEvent :=
  match frame.kind with
  | .done => state.flushDone
  | .data => parseSseChunk autoToolId callIds state frame.data

/-- After such an event the stream loop has emitted content. -/
def isContent : LlmEvent → Bool
  | .textDelta _ | .thinkingDelta _ | .toolUse _ _ _ _ => true
  | _ => false

end OpenAi

/-! ## Anthropic messages -/

namespace Anthropic

structure StreamState where
  currentBlockType : Option String := none
  toolInputJson : String := ""
  toolId : String := ""
  toolName : String := ""
  inputTokens : ℕ := 0
  outputTokens : ℕ := 0
  cacheCreationTokens : ℕ := 0
  cacheReadTokens : ℕ := 0

namespace StreamState

variable (state : StreamState) (json : Json)

def messageStart : StreamState :=
  match (json.get "message").bind (·.get "usage") with
  | some usage =>
    { state with
      inputTokens := (asU64 (field usage "input_tokens")).getD 0
      cacheCreationTokens := (asU64 (field usage "cache_creation_input_tokens")).getD 0
      cacheReadTokens := (asU64 (field usage "cache_read_input_tokens")).getD 0 }
  | none => state

def contentBlockStart : StreamState :=
  let block := field json "content_block"
  let blockType := (field block "type").asStr.getD ""
  let state := { state with currentBlockType := some blockType }
  if blockType = "tool_use" then
    { state with
      toolId := (field block "id").asStr.getD ""
      toolName := (field block "name").asStr.getD ""
      toolInputJson := "" }
  else state

def contentBlockDelta : StreamState × List LlmEvent :=
  let delta := field json "delta"
  let deltaType := (field delta "type").asStr.getD ""
  if deltaType = "text_delta" then
    (state, (field delta "text").asStr.toList.map .textDelta)
  else if deltaType = "input_json_delta" then
    ({ state with
       toolInputJson := state.toolInputJson ++ (field delta "partial_json").asStr.getD "" }, [])
  else if deltaType = "thinking_delta" then
    (state, (field delta "thinking").asStr.toList.map .thinkingDelta)
  else if deltaType = "signature_delta" then
    (state, (field delta "signature").asStr.toList.flatMap fun signature =>
      [.thinkingSignature signature,
        .providerMetadata "anthropic" (.object [("thinking_signature", .string signature)])])
  else (state, [])

def contentBlockStop : StreamState × List LlmEvent :=
  if state.currentBlockType = some "tool_use" then
    ({ state with toolInputJson := "", currentBlockType := none },
      [.toolUse state.toolId state.toolName (toolInput state.toolInputJson) none])
  else ({ state with currentBlockType := none }, [])

def messageDelta : StreamState × List LlmEvent :=
  let stopReason :=
    match (field (field json "delta") "stop_reason").asStr with
    | some "end_turn" => .endTurn
    | some "tool_use" => .toolUse
    | some "max_tokens" => .maxTokens
    | _ => .endTurn
  let state :=
    match json.get "usage" with
    | some usage => { state with outputTokens := (asU64 (field usage "output_tokens")).getD 0 }
    | none => state
  (state, [.done stopReason ⟨state.inputTokens, state.outputTokens, state.cacheCreationTokens,
    state.cacheReadTokens⟩])

end StreamState

def parseSseData (state : StreamState) (eventType data : String) : StreamState × List LlmEvent :=
  match fromStr data with
  | none => (state, [])
  | some json =>
    if eventType = "message_start" then (state.messageStart json, [])
    else if eventType = "content_block_start" then (state.contentBlockStart json, [])
    else if eventType = "content_block_delta" then state.contentBlockDelta json
    else if eventType = "content_block_stop" then state.contentBlockStop
    else if eventType = "message_delta" then state.messageDelta json
    else if eventType = "error" then
      (state, [.error ((field (field json "error") "message").asStr.getD "Unknown API error")])
    else (state, [])

/-- `AnthropicParser::parse_frame`. -/
def parseFrame (state : StreamState) (frame : Frame) : StreamState × List LlmEvent :=
  parseSseData state (frame.event.getD "") frame.data

def isContent : LlmEvent → Bool
  | .textDelta _ | .thinkingDelta _ | .thinkingSignature _ | .providerMetadata _ _
  | .toolUse _ _ _ _ => true
  | _ => false

end Anthropic

/-! ## OpenAI responses -/

namespace Responses

def usageFromResponse (response : Option Json) : TokenUsage :=
  let usage := response.bind (·.get "usage")
  { inputTokens := ((usage.bind (·.get "input_tokens")).bind asU64).getD 0
    outputTokens := ((usage.bind (·.get "output_tokens")).bind asU64).getD 0
    cacheReadTokens :=
      (((usage.bind (·.get "input_tokens_details")).bind (·.get "cached_tokens")).bind asU64).getD
        0 }

/-- The state is `saw_tool_call`. -/
def mapOutputItemDone (sawToolCall : Bool) (event : Json) : Bool × List LlmEvent :=
  match event.get "item" with
  | none => (sawToolCall, [])
  | some item =>
    let itemType := ((item.get "type").bind Json.asStr).getD ""
    if itemType = "function_call" then
      match (item.get "call_id").bind Json.asStr, (item.get "name").bind Json.asStr with
      | some callId, some name =>
        let arguments := ((item.get "arguments").bind Json.asStr).getD "\x7b\x7d"
        (true,
          [.providerMetadata "openai" (.object [("tool_calls", .object [(callId, item)])]),
            .toolUse callId name (toolInput arguments) none])
      | _, _ => (true, [])
    else if itemType = "reasoning" then
      (sawToolCall,
        [.thinkingSignature "openai-responses-reasoning",
          .providerMetadata "openai" (.object [("reasoning_items", .array [item])])])
    else (sawToolCall, [])

def delta (event : Json) : Option String := (event.get "delta").bind nonEmptyStr

def errorMessage (event : Json) : String :=
  let message := ((event.get "response").bind (·.get "error")).bind (·.get "message")
  ((message <|> event.get "message").bind Json.asStr).getD "OpenAI Responses stream failed"

def parseFrame (sawToolCall : Bool) (frame : Frame) : Bool × List LlmEvent :=
  match fromStr frame.data with
  | none => (sawToolCall, [])
  | some event =>
    let eventType := ((event.get "type").bind Json.asStr).getD ""
    if eventType = "response.output_text.delta" then
      (sawToolCall, (delta event).toList.map .textDelta)
    else if eventType = "response.reasoning_text.delta" ∨
        eventType = "response.reasoning_summary_text.delta" then
      (sawToolCall, (delta event).toList.map .thinkingDelta)
    else if eventType = "response.output_item.done" then mapOutputItemDone sawToolCall event
    else if eventType = "response.completed" then
      (sawToolCall, [.done (if sawToolCall then .toolUse else .endTurn)
        (usageFromResponse (event.get "response"))])
    else if eventType = "response.incomplete" then
      (sawToolCall, [.done .maxTokens (usageFromResponse (event.get "response"))])
    else if eventType = "response.failed" ∨ eventType = "error" then
      (sawToolCall, [.error (errorMessage event)])
    else (sawToolCall, [])

def isContent : LlmEvent → Bool
  | .textDelta _ | .thinkingDelta _ | .providerMetadata _ _ | .toolUse _ _ _ _ => true
  | _ => false

end Responses

end SolarisMesh.Providers
