import SolarisMesh.Providers.Parsers
import SolarisMesh.Lib.Utf8Lossy

/-!
# Processing a response

A response is a sequence of chunks of bytes, which a connection error may end. Each chunk is read as
text on its own, cut into frames and parsed. A processor says whether the stream failed, and then
whether it had sent content before.
-/

namespace SolarisMesh.Providers

open List Lib
open Utf8 (encode)

inductive ProviderError where
  | http (message : String)
  | api (status : ℕ) (message : String)
  | parse (message : String)
  | rateLimited (retryAfterMs : ℕ) (body : Option String)
  | promptTooLong (message : String)
  | connection (message : String)
  deriving DecidableEq

namespace ProviderError

def isRetryable : ProviderError → Bool
  | .rateLimited _ _ => true
  | .connection _ => true
  | _ => false

/-- The text an `Error` event carries. -/
def display : ProviderError → String
  | .http message => s!"HTTP error: {message}"
  | .api status message => s!"API error {status}: {message}"
  | .parse message => s!"SSE parse error: {message}"
  | .rateLimited retryAfterMs _ => s!"Rate limited, retry after {retryAfterMs}ms"
  | .promptTooLong message => s!"Prompt too long: {message}"
  | .connection message => s!"Connection error: {message}"

end ProviderError

inductive StreamOutcome where
  | ok
  | failedEmpty (error : ProviderError)
  | failedPartial (error : ProviderError)
  deriving DecidableEq

/-- The chunks of a response; an error is the text of a connection error. -/
abbrev Response := List (Except String Bytes)

/-- A framer and a parser with what the stream loop asks of them. A framer's frames do not depend on
how the text is cut. -/
structure SseProcessor where
  Framer : Type
  State : Type
  framer : Framer
  newState : State
  pushText : Framer → List Char → Framer × List Frame
  parseFrame : State → Frame → State × List LlmEvent
  /-- No frame after this one is read. -/
  stopsAt : Frame → Bool
  isContent : LlmEvent → Bool
  finish : State → List LlmEvent
  /-- The events that end the stream in place of a connection error. -/
  recover : String → State → Option (List LlmEvent)
  pushText_append : ∀ framer left right, pushText framer (left ++ right) =
    ((pushText (pushText framer left).1 right).1,
      (pushText framer left).2 ++ (pushText (pushText framer left).1 right).2)

namespace SseProcessor

variable (p : SseProcessor)

structure FramesRead where
  state : p.State
  events : List LlmEvent
  stopped : Bool

def readFrames : p.State → List Frame → p.FramesRead
  | state, [] => ⟨state, [], false⟩
  | state, frame :: frames =>
    let (state, events) := p.parseFrame state frame
    if p.stopsAt frame then ⟨state, events, true⟩
    else
      let rest := readFrames state frames
      ⟨rest.state, events ++ rest.events, rest.stopped⟩

def processFrom : p.Framer → p.State → (emittedContent : Bool) → Response →
    List LlmEvent × StreamOutcome
  | _, state, _, [] => (p.finish state, .ok)
  | _, state, emittedContent, .error error :: _ =>
    match p.recover error state with
    | some events => (events, .ok)
    | none =>
      ([], if emittedContent then .failedPartial (.connection error)
        else .failedEmpty (.connection error))
  | framer, state, emittedContent, .ok chunk :: rest =>
    let (framer, frames) := p.pushText framer (Utf8.decodeLossy chunk)
    let read := p.readFrames state frames
    if read.stopped then (read.events, .ok)
    else
      let (events, outcome) :=
        processFrom framer read.state (emittedContent || read.events.any p.isContent) rest
      (read.events ++ events, outcome)

def process (response : Response) : List LlmEvent × StreamOutcome :=
  p.processFrom p.framer p.newState false response

end SseProcessor

/-! ## The processors -/

def isCloseNotifyError (error : String) : Bool :=
  decide ("peer closed connection without sending TLS close_notify".toList <:+: error.toList)

/-- `process_openai_sse_stream`. -/
def processOpenaiSseStream (autoToolId : Bool) (callIds : ℕ → String) : SseProcessor where
  Framer := SseLineFramer
  State := OpenAi.StreamState
  framer := ⟨[]⟩
  newState := {}
  pushText framer text := framer.pushText text "[DONE]"
  parseFrame := OpenAi.parseFrame autoToolId callIds
  stopsAt frame := frame.kind = .done
  isContent := OpenAi.isContent
  finish state := state.flushDone.2
  recover error state :=
    if isCloseNotifyError error then
      let events := state.flushDone.2
      if events.any LlmEvent.isDone then some events else none
    else none
  pushText_append framer left right := framer.pushText_append left right _

/-- `process_anthropic_sse_stream`. -/
def processAnthropicSseStream : SseProcessor where
  Framer := SseBlockFramer
  State := Anthropic.StreamState
  framer := ⟨[], none⟩
  newState := {}
  pushText := SseBlockFramer.pushText
  parseFrame := Anthropic.parseFrame
  stopsAt _ := false
  isContent := Anthropic.isContent
  finish _ := []
  recover _ _ := none
  pushText_append := SseBlockFramer.pushText_append

/-- `process_responses_stream`. -/
def processResponsesStream : SseProcessor where
  Framer := SseBlockFramer
  State := Bool
  framer := ⟨[], none⟩
  newState := false
  pushText := SseBlockFramer.pushText
  parseFrame := Responses.parseFrame
  stopsAt _ := false
  isContent := Responses.isContent
  finish _ := []
  recover _ _ := none
  pushText_append := SseBlockFramer.pushText_append

/-- The formats that are read as server-sent events. -/
inductive SseFormat where
  | openAiSseLine (autoToolId : Bool)
  | anthropicSseBlock
  | openAiResponses
  deriving DecidableEq

/-- `callIds` are the ids that `generate_call_id` makes, one after the other. -/
def SseFormat.processor (callIds : ℕ → String) : SseFormat → SseProcessor
  | .openAiSseLine autoToolId => processOpenaiSseStream autoToolId callIds
  | .anthropicSseBlock => processAnthropicSseStream
  | .openAiResponses => processResponsesStream

/-! ## A body in chunks -/

namespace SseProcessor

variable (p : SseProcessor)

lemma readFrames_append (state : p.State) (frames more : List Frame) :
    p.readFrames state (frames ++ more) =
      if (p.readFrames state frames).stopped then p.readFrames state frames
      else
        ⟨(p.readFrames (p.readFrames state frames).state more).state,
          (p.readFrames state frames).events ++
            (p.readFrames (p.readFrames state frames).state more).events,
          (p.readFrames (p.readFrames state frames).state more).stopped⟩ := by
  induction frames generalizing state with
  | nil => rfl
  | cons frame frames ih =>
    rw [cons_append]
    simp only [readFrames]
    split
    · rfl
    · rw [ih]
      dsimp only
      split
      · rfl
      · simp only [append_assoc]

/-- Two chunks are read as one if the first ends between two characters. -/
lemma processFrom_merge (framer : p.Framer) (state : p.State) (emittedContent : Bool)
    (piece : List Char) (chunk : Bytes) (rest : Response) :
    p.processFrom framer state emittedContent (.ok (encode piece) :: .ok chunk :: rest) =
      p.processFrom framer state emittedContent (.ok (encode piece ++ chunk) :: rest) := by
  simp only [processFrom, Utf8.decodeLossy_encode, Utf8.decodeLossy_encode_append,
    p.pushText_append, readFrames_append]
  split
  · rfl
  · simp only [any_append, Bool.or_assoc]
    split
    · rfl
    · simp only [append_assoc]

lemma processFrom_chunks (framer : p.Framer) (state : p.State) (emittedContent : Bool)
    (chunk : Bytes) (chunks : List Bytes)
    (h : ∀ c ∈ chunk :: chunks, ∃ piece, c = encode piece) :
    p.processFrom framer state emittedContent ((chunk :: chunks).map .ok) =
      p.processFrom framer state emittedContent [.ok (chunk :: chunks).flatten] := by
  induction chunks generalizing chunk with
  | nil => simp
  | cons next chunks ih =>
    obtain ⟨hchunk, hnext, hchunks⟩ := by simpa only [forall_mem_cons] using h
    obtain ⟨piece, rfl⟩ := hchunk
    obtain ⟨piece', rfl⟩ := hnext
    have hmerged := ih (encode piece ++ encode piece')
      (forall_mem_cons.2 ⟨⟨piece ++ piece', (Utf8.encode_append _ _).symm⟩, hchunks⟩)
    simp only [map_cons, flatten_cons, processFrom_merge] at hmerged ⊢
    rw [hmerged, append_assoc]

end SseProcessor

/-- The events of a response whose chunks have arrived. -/
def SseFormat.events (format : SseFormat) (callIds : ℕ → String) (chunks : List Bytes) :
    List LlmEvent :=
  ((format.processor callIds).process (chunks.map .ok)).1

/-- No chunk ends inside a character. -/
def WholeCharacters (chunks : List Bytes) : Prop :=
  ∀ chunk ∈ chunks, ∃ piece, chunk = encode piece

/-- A body whose chunks end between characters gives the events of the body in one chunk. Exactly
then is the text that the framer gets the body's text. -/
theorem events_of_whole_characters (format : SseFormat) (callIds : ℕ → String)
    (chunks : List Bytes) (text : List Char) (hbody : chunks.flatten = encode text) :
    (chunks.flatMap Utf8.decodeLossy = text ↔ WholeCharacters chunks) ∧
      (WholeCharacters chunks →
        format.events callIds chunks = format.events callIds [encode text]) := by
  refine ⟨Utf8.flatMap_decodeLossy_iff hbody, fun hwhole => ?_⟩
  rcases chunks with _ | ⟨chunk, chunks⟩
  · rw [← hbody]
    cases format <;> rfl
  · rw [SseFormat.events, SseProcessor.process, SseProcessor.processFrom_chunks _ _ _ _ _ _ hwhole,
      hbody]
    rfl

/-- A response's text delta "é". -/
def textDelta : List Char :=
  "data: \x7b\"type\":\"response.output_text.delta\",\"delta\":\"é\"\x7d\n\n".toList

theorem events_of_cut_terminator :
    SseFormat.openAiResponses.events (fun _ => "")
        [encode textDelta.dropLast, encode ['\n']] =
      SseFormat.openAiResponses.events (fun _ => "") [encode textDelta] :=
  (events_of_whole_characters .openAiResponses _ _ textDelta (by decide +kernel)).2
    (forall_mem_cons.2 ⟨⟨_, rfl⟩, forall_mem_singleton.2 ⟨_, rfl⟩⟩)

/-- A body cut between the two bytes of a character gives other events than the body. -/
theorem events_of_cut_character :
    let body := encode textDelta
    [body.take 53, body.drop 53].flatten = body ∧
      SseFormat.openAiResponses.events (fun _ => "") [body] = [.textDelta "é"] ∧
      SseFormat.openAiResponses.events (fun _ => "") [body.take 53, body.drop 53] =
        [.textDelta "\uFFFD\uFFFD"] := by
  decide +kernel

end SolarisMesh.Providers
