import SolarisMesh.Providers.Stream

/-!
# The event stream of Bedrock

A response is a sequence of binary messages: the total length and the length of the headers, four
bytes each, a checksum, the headers, a payload and a checksum. The stream loop reads the payloads of
the messages that are complete and keeps the rest of the bytes.
-/

namespace SolarisMesh.Providers

open List Lib

/-- What `parse_aws_event` makes of a buffer; `more` asks for more bytes. -/
inductive AwsEvent where
  | more
  | panicked
  | event (payload : Option Bytes) (consumed : ℕ)
  deriving DecidableEq

/-- `u32::from_be_bytes`. -/
def fromBeBytes (bytes : Bytes) : ℕ := bytes.foldl (fun n byte => n * 256 + byte.toNat) 0

def totalLen (buffer : Bytes) : ℕ := fromBeBytes (buffer.take 4)

def headersLen (buffer : Bytes) : ℕ := fromBeBytes ((buffer.drop 4).take 4)

def parseAwsEvent (buffer : Bytes) : AwsEvent :=
  if buffer.length < 12 then .more
  else if buffer.length < totalLen buffer then .more
  -- the end of the payload underflows, which is no index of the buffer either if it wraps around
  else if totalLen buffer < 4 then .panicked
  else
    let payloadStart := 12 + headersLen buffer
    let payloadEnd := totalLen buffer - 4
    .event (if payloadStart ≤ payloadEnd then some ((buffer.take payloadEnd).drop payloadStart)
      else none) (totalLen buffer)

lemma consumed_of_event {buffer : Bytes} {payload : Option Bytes} {consumed : ℕ}
    (h : parseAwsEvent buffer = .event payload consumed) :
    4 ≤ consumed ∧ consumed ≤ buffer.length := by
  unfold parseAwsEvent at h
  split_ifs at h
  cases h
  omega

/-- The payloads read from a buffer, the bytes that are left, and whether reading them panics. -/
structure Drained where
  payloads : List Bytes
  rest : Bytes
  panicked : Bool

/-- The inner loop. -/
def drainEvents (buffer : Bytes) : Drained :=
  match _h : parseAwsEvent buffer with
  | .more => ⟨[], buffer, false⟩
  | .panicked => ⟨[], buffer, true⟩
  | .event payload consumed =>
    let next := drainEvents (buffer.drop consumed)
    { next with payloads := payload.toList ++ next.payloads }
termination_by buffer.length
decreasing_by
  have := consumed_of_event _h
  simp only [length_drop]
  omega

def bedrockPayloadToFrame (base64 : String → Option Bytes) (payload : Bytes) : Option Frame := do
  let wrapper ← fromStr (String.ofList (← Utf8.decode payload))
  let decoded ← base64 (← (← wrapper.get "bytes").asStr)
  let inner := String.ofList (← Utf8.decode decoded)
  let innerJson ← fromStr inner
  some ⟨some (((innerJson.get "type").bind (·.asStr)).getD ""), inner, .data⟩

structure BedrockState where
  state : Anthropic.StreamState := {}
  emittedContent : Bool := false
  emittedDone : Bool := false

section Process

variable (base64 : String → Option Bytes)

def readPayload (s : BedrockState) (payload : Bytes) : BedrockState × List LlmEvent :=
  match bedrockPayloadToFrame base64 payload with
  | none => (s, [])
  | some frame =>
    let (state, events) := Anthropic.parseFrame s.state frame
    (⟨state, s.emittedContent || events.any Anthropic.isContent,
      s.emittedDone || events.any LlmEvent.isDone⟩, events)

/-- `process_bedrock_aws_event_stream`: the events that are sent and the outcome, none after a
panic. -/
def processBedrockFrom : Bytes → BedrockState → Response → List LlmEvent × Option StreamOutcome
  | _, s, [] =>
    (if !s.emittedDone && (s.state.inputTokens > 0 || s.state.outputTokens > 0) then
      [.done .endTurn ⟨s.state.inputTokens, s.state.outputTokens, s.state.cacheCreationTokens,
        s.state.cacheReadTokens⟩]
      else [], some .ok)
  | _, s, .error error :: _ =>
    ([], some (if s.emittedContent then .failedPartial (.connection error)
      else .failedEmpty (.connection error)))
  | buffer, s, .ok chunk :: rest =>
    let drained := drainEvents (buffer ++ chunk)
    let (s, events) := Delimited.gather (readPayload base64) s drained.payloads
    if drained.panicked then (events, none)
    else
      let (more, outcome) := processBedrockFrom drained.rest s rest
      (events ++ more, outcome)

def processBedrockAwsEventStream (response : Response) : List LlmEvent × Option StreamOutcome :=
  processBedrockFrom base64 [] {} response

end Process

/-! ## One message -/

/-- The parser asks for more bytes or consumes a message of the buffer, no less than its prelude,
with the payload inside. -/
def FramesEvent (buffer : Bytes) : Prop :=
  parseAwsEvent buffer = .more ∨ ∃ payload consumed,
    parseAwsEvent buffer = .event payload consumed ∧ 12 ≤ consumed ∧ consumed ≤ buffer.length ∧
      ∀ bytes ∈ payload, bytes <:+: (buffer.take consumed).drop 12

lemma framesEvent_iff (buffer : Bytes) :
    FramesEvent buffer ↔
      (12 ≤ buffer.length → totalLen buffer ≤ buffer.length → 12 ≤ totalLen buffer) := by
  unfold FramesEvent parseAwsEvent
  split_ifs with hprelude hshort hunder
  · exact iff_of_true (.inl rfl) fun h => by omega
  · exact iff_of_true (.inl rfl) fun _ h => by omega
  · refine iff_of_false ?_ fun h => by have := h (by omega) (by omega); omega
    rintro (h | ⟨_, _, h, -⟩) <;> cases h
  · simp only [false_or, AwsEvent.event.injEq]
    constructor
    · rintro ⟨_, _, ⟨-, rfl⟩, h, -⟩ _ _
      exact h
    · intro h
      refine ⟨_, _, ⟨rfl, rfl⟩, h (by omega) (by omega), by omega, fun bytes hbytes => ?_⟩
      split_ifs at hbytes
      · cases hbytes
        have hbefore : buffer.take (totalLen buffer - 4) <+: buffer.take (totalLen buffer) :=
          take_prefix_take_left (by omega)
        rw [← drop_drop]
        exact (drop_suffix _ _).isInfix.trans (hbefore.drop 12).isInfix
      · cases hbytes

/-- A message is read in the same way whatever follows it. -/
lemma parseAwsEvent_append (buffer next : Bytes) (h : parseAwsEvent buffer ≠ .more) :
    parseAwsEvent (buffer ++ next) = parseAwsEvent buffer := by
  unfold parseAwsEvent at h ⊢
  have hprelude : ¬buffer.length < 12 := fun hprelude => h (if_pos hprelude)
  have htotal : totalLen (buffer ++ next) = totalLen buffer := by
    unfold totalLen
    rw [take_append_of_le_length (by omega)]
  have hheaders : headersLen (buffer ++ next) = headersLen buffer := by
    unfold headersLen
    rw [drop_append_of_le_length (by omega), take_append_of_le_length (by simp; omega)]
  have hwhole : ¬buffer.length < totalLen buffer := fun hwhole => h (by simp [hprelude, hwhole])
  have hpayload : (buffer ++ next).take (totalLen buffer - 4) = buffer.take (totalLen buffer - 4) :=
    take_append_of_le_length (by omega)
  simp only [htotal, hheaders, hpayload, length_append, if_neg hprelude, if_neg hwhole]
  rw [if_neg (by omega), if_neg (by omega)]

/-! ## The loop -/

lemma drainEvents_of_event {buffer : Bytes} {payload : Option Bytes} {consumed : ℕ}
    (h : parseAwsEvent buffer = .event payload consumed) :
    drainEvents buffer =
      let next := drainEvents (buffer.drop consumed)
      { next with payloads := payload.toList ++ next.payloads } := by
  rw [drainEvents]
  split
  all_goals simp_all

/-- Reading goes on with the bytes that were left. -/
lemma drainEvents_append (buffer more : Bytes) :
    drainEvents (buffer ++ more) =
      let first := drainEvents buffer
      if first.panicked then { first with rest := first.rest ++ more }
      else
        let next := drainEvents (first.rest ++ more)
        { next with payloads := first.payloads ++ next.payloads } := by
  fun_induction drainEvents buffer with
  | case1 => rfl
  | case2 buffer h =>
    have hmore := parseAwsEvent_append buffer more (by simp [h])
    rw [drainEvents]
    split
    all_goals simp_all
  | case3 buffer payload consumed h next ih =>
    have hmore := parseAwsEvent_append buffer more (by simp [h])
    rw [drainEvents_of_event (hmore.trans h), drop_append_of_le_length (consumed_of_event h).2, ih]
    simp only [next]
    split_ifs <;> simp

section Chunks

variable (base64 : String → Option Bytes)

lemma processBedrockFrom_merge (buffer : Bytes) (s : BedrockState) (chunk next : Bytes)
    (tail : Response) :
    processBedrockFrom base64 buffer s (.ok chunk :: .ok next :: tail) =
      processBedrockFrom base64 buffer s (.ok (chunk ++ next) :: tail) := by
  have happend := drainEvents_append (buffer ++ chunk) next
  rw [append_assoc] at happend
  cases hfirst : (drainEvents (buffer ++ chunk)).panicked with
  | true => simp [processBedrockFrom, happend, hfirst]
  | false =>
    simp only [processBedrockFrom, happend, hfirst, Delimited.gather_append, Bool.false_eq_true,
      if_false]
    split_ifs
    · rfl
    · simp only [append_assoc]

lemma processBedrock_flatten (chunks : List Bytes) (tail : Response) :
    processBedrockAwsEventStream base64 (chunks.map .ok ++ tail) =
      processBedrockAwsEventStream base64 (.ok chunks.flatten :: tail) := by
  cases chunks with
  | nil =>
    have hempty : drainEvents [] = ⟨[], [], false⟩ := by simp [drainEvents, parseAwsEvent]
    simp [processBedrockAwsEventStream, processBedrockFrom, hempty, Delimited.gather]
  | cons chunk chunks =>
    unfold processBedrockAwsEventStream
    induction chunks generalizing chunk with
    | nil => simp
    | cons next chunks ih =>
      have hmerged := ih (chunk ++ next)
      simp only [map_cons, cons_append, flatten_cons, append_assoc] at hmerged ⊢
      rw [processBedrockFrom_merge, hmerged]

/-- A buffer is framed if and only if no message claims to be shorter than the prelude. A loop over
any buffer ends, where more bytes are needed or in a panic, and the events of a response depend on
its bytes alone. -/
theorem bedrock_framed_iff :
    (∀ buffer, FramesEvent buffer ↔
      (12 ≤ buffer.length → totalLen buffer ≤ buffer.length → 12 ≤ totalLen buffer)) ∧
    (∀ buffer, parseAwsEvent (drainEvents buffer).rest =
      if (drainEvents buffer).panicked then .panicked else .more) ∧
    ∀ (chunks : List Bytes) (tail : Response),
      processBedrockAwsEventStream base64 (chunks.map .ok ++ tail) =
        processBedrockAwsEventStream base64 (.ok chunks.flatten :: tail) := by
  refine ⟨framesEvent_iff, fun buffer => ?_, processBedrock_flatten base64⟩
  fun_induction drainEvents buffer with
  | case1 _ h => exact h
  | case2 _ h => exact h
  | case3 _ _ _ _ _ ih => exact ih

end Chunks

/-- Twelve zero bytes end the task with a panic; a message that claims five bytes is taken to be
five bytes long. -/
theorem short_message_misread :
    parseAwsEvent (replicate 12 0) = .panicked ∧
      parseAwsEvent ([0, 0, 0, 5] ++ replicate 8 0) = .event none 5 ∧
      ¬FramesEvent (replicate 12 0) ∧ ¬FramesEvent ([0, 0, 0, 5] ++ replicate 8 0) := by
  simp only [framesEvent_iff]
  decide

end SolarisMesh.Providers
