import EmbyAuto.JsonText.Scan

/-!
# Encoding the requests of a tool loop

The requests of one tool loop carry the same growing list of messages, so the encoder keeps the
messages that it has encoded and the number of their bytes, and writes each request around them.
A request over the limit fails, possibly before all of its messages are encoded.

## Main definitions

* `ChatRequestEncoder.encode`: one request, with the messages encoded before
* `marshalRequest`: the request encoded at once

## Main results

* `Keeps.encode`: one call, whatever the encoder has kept of an earlier request
* `encodeAll_eq_marshal`: all calls of a loop
-/

namespace EmbyAuto

open JsonText

def maxChatRequestBytes : Nat := 16 * 2 ^ 20

inductive EncodeError where
  | unsupported
  | requestTooLarge
  deriving DecidableEq

/-- `json.Marshal` on the parts of a request. Tools and numbers may have no encoding. -/
structure ChatCodec (Message Tools : Type) where
  model : String → Bytes
  message : Message → Bytes
  tools : Tools → Option Bytes
  temperature : Float → Option Bytes

structure ChatRequest (Message Tools : Type) where
  model : String
  /-- `none` is the slice `nil`. -/
  messages : Option (List Message)
  tools : Tools
  temperature : Option Float

variable {Message Tools : Type} (codec : ChatCodec Message Tools)

/-! ## The request at once -/

def objectText (members : List (Bytes × Bytes)) : Bytes :=
  0x7b :: [0x2c].intercalate (members.map member) ++ [0x7d]

/-- The members behind the messages; a temperature of `nil` is omitted. -/
def ChatRequest.metadata (request : ChatRequest Message Tools) : Option (List (Bytes × Bytes)) := do
  let tools ← codec.tools request.tools
  match request.temperature with
  | none => some [(ascii "\"tools\"", tools)]
  | some temperature =>
    (codec.temperature temperature).map fun temperature =>
      [(ascii "\"tools\"", tools), (ascii "\"temperature\"", temperature)]

/-- `json.Marshal` of a list of messages. -/
def messagesText (messages : Option (List Bytes)) : Bytes :=
  match messages with
  | none => ascii "null"
  | some messages => 0x5b :: [0x2c].intercalate messages ++ [0x5d]

/-- The request as an object that ends with these members. -/
def ChatRequest.text (request : ChatRequest Message Tools) (metadata : List (Bytes × Bytes)) :
    Bytes :=
  objectText ((ascii "\"model\"", codec.model request.model) :: (ascii "\"messages\"",
    messagesText (request.messages.map (·.map codec.message))) :: metadata)

/-- `json.Marshal` of a request. -/
def marshalRequest (request : ChatRequest Message Tools) : Option Bytes :=
  (request.metadata codec).map (request.text codec)

/-- An encoded request, unless it is over the limit. -/
def limitRequest : Option Bytes → Except EncodeError Bytes
  | none => .error .unsupported
  | some encoded =>
    if encoded.length > maxChatRequestBytes then .error .requestTooLarge else .ok encoded

/-! ## The encoder -/

structure ChatRequestEncoder where
  messages : List Bytes := []
  messageBytes : Nat := 0

namespace ChatRequestEncoder

/-- The loop over the messages that are not encoded yet; `false` when the limit is passed. -/
def append : List Message → ChatRequestEncoder → ChatRequestEncoder × Bool
  | [], encoder => (encoder, true)
  | m :: rest, encoder =>
    if (codec.message m).length > maxChatRequestBytes - encoder.messageBytes then (encoder, false)
    else append rest { messages := encoder.messages ++ [codec.message m]
                       messageBytes := encoder.messageBytes + (codec.message m).length }

/-- The check of the length, and the request around the encoded messages. -/
def write (encoder : ChatRequestEncoder) (request : ChatRequest Message Tools)
    (metadata : Bytes) : Except EncodeError Bytes :=
  let model := codec.model request.model
  let messagesSize := if request.messages.isNone then (ascii "null").length
    else 2 + encoder.messageBytes + (encoder.messages.length - 1)
  let requestSize := (ascii "\x7b\"model\":").length + model.length +
    (ascii ",\"messages\":").length + messagesSize + metadata.length
  if requestSize > maxChatRequestBytes then .error .requestTooLarge
  else .ok (ascii "\x7b\"model\":" ++ model ++ ascii ",\"messages\":" ++
    messagesText (request.messages.map fun _ => encoder.messages) ++ 0x2c :: metadata.tail)

def encode (encoder : ChatRequestEncoder) (request : ChatRequest Message Tools) :
    ChatRequestEncoder × Except EncodeError Bytes :=
  match request.metadata codec with
  | none => (encoder, .error .unsupported)
  | some metadata =>
    let messages := request.messages.getD []
    let encoder := if messages.length < encoder.messages.length then {} else encoder
    match append codec (messages.drop encoder.messages.length) encoder with
    | (encoder, false) => (encoder, .error .requestTooLarge)
    | (encoder, true) => (encoder, encoder.write codec request (objectText metadata))

/-- The answers to some requests, one after the other. -/
def encodeAll : List (ChatRequest Message Tools) → ChatRequestEncoder →
    List (Except EncodeError Bytes)
  | [], _ => []
  | request :: requests, encoder =>
    (encoder.encode codec request).2 :: encodeAll requests (encoder.encode codec request).1

/-- The encoder has kept the encodings of these messages, within the limit. -/
structure Keeps (encoder : ChatRequestEncoder) (kept : List Message) : Prop where
  messages : encoder.messages = kept.map codec.message
  messageBytes : encoder.messageBytes = (kept.map fun m => (codec.message m).length).sum
  fits : encoder.messageBytes ≤ maxChatRequestBytes

variable {codec} {encoder : ChatRequestEncoder} {kept rest : List Message}

/-- The loop keeps every message, or the messages up to one that does not fit. -/
theorem Keeps.append (h : encoder.Keeps codec kept) : ∃ more, more <+: rest ∧
    (append codec rest encoder).1.Keeps codec (kept ++ more) ∧
    ((append codec rest encoder).2 = true ∧ more = rest ∨ (append codec rest encoder).2 = false ∧
      maxChatRequestBytes < ((kept ++ rest).map fun m => (codec.message m).length).sum) := by
  induction rest generalizing encoder kept with
  | nil => exact ⟨[], List.nil_prefix,
      by simpa [ChatRequestEncoder.append] using h, .inl ⟨rfl, rfl⟩⟩
  | cons m rest ih =>
    rw [ChatRequestEncoder.append]
    have hbytes := h.messageBytes
    have hfits := h.fits
    split_ifs with hlong
    · refine ⟨[], List.nil_prefix, by simpa using h, .inr ⟨rfl, ?_⟩⟩
      simp only [List.map_append, List.map_cons, List.sum_append, List.sum_cons]
      omega
    · have hstep : Keeps codec ⟨encoder.messages ++ [codec.message m],
          encoder.messageBytes + (codec.message m).length⟩ (kept ++ [m]) :=
        ⟨by simp [h.messages], by simp [hbytes], by dsimp only; omega⟩
      obtain ⟨more, hmore, hkeeps, hdone⟩ := ih hstep
      rw [List.append_assoc] at hkeeps hdone
      exact ⟨m :: more, List.cons_prefix_cons.mpr ⟨rfl, hmore⟩, hkeeps,
        hdone.imp_left fun hdone => ⟨hdone.1, by rw [hdone.2]⟩⟩

theorem length_intercalate (parts : List Bytes) : ([0x2c].intercalate parts).length =
    (parts.map List.length).sum + (parts.length - 1) := by
  induction parts with
  | nil => rfl
  | cons part parts ih =>
    cases parts with
    | nil => simp
    | cons next parts =>
      rw [List.intercalate_cons_cons]
      simp only [List.length_append, ih, List.map_cons, List.sum_cons, List.length_cons,
        List.length_nil]
      omega

theorem metadata_ne_nil {request : ChatRequest Message Tools} {metadata}
    (h : request.metadata codec = some metadata) : metadata ≠ [] := by
  obtain ⟨tools, -, h⟩ := Option.bind_eq_some_iff.mp h
  rintro rfl
  split at h
  · cases h
  · obtain ⟨_, -, h⟩ := Option.map_eq_some_iff.mp h
    cases h

section Request

variable {request : ChatRequest Message Tools} {metadata : List (Bytes × Bytes)}

/-- The request is written around its messages, and ends with its metadata. -/
theorem text_eq (h : metadata ≠ []) : request.text codec metadata =
    ascii "\x7b\"model\":" ++ codec.model request.model ++ ascii ",\"messages\":" ++
      messagesText (request.messages.map (·.map codec.message)) ++
        0x2c :: (objectText metadata).tail := by
  obtain ⟨first, rest, rfl⟩ := List.exists_cons_of_ne_nil h
  simp only [ChatRequest.text, objectText, member, ascii, List.map_cons]
  simp
  decide

/-- The length of the encoded request. -/
theorem length_text (h : metadata ≠ []) : (request.text codec metadata).length =
    (ascii "\x7b\"model\":").length + (codec.model request.model).length +
      (ascii ",\"messages\":").length + (if request.messages.isNone then (ascii "null").length
        else 2 + ((request.messages.getD []).map fun m => (codec.message m).length).sum +
          ((request.messages.getD []).length - 1)) + (objectText metadata).length := by
  have htail : (objectText metadata).tail.length + 1 = (objectText metadata).length := rfl
  rw [text_eq h]
  simp only [List.length_append]
  cases request.messages with
  | none => rfl
  | some messages =>
    simp [messagesText, length_intercalate, Function.comp_def]
    omega

/-- With all messages encoded, the request is written as it is at once. -/
theorem Keeps.write (h : encoder.Keeps codec (request.messages.getD [])) (hne : metadata ≠ []) :
    encoder.write codec request (objectText metadata) =
      limitRequest (some (request.text codec metadata)) := by
  have hmessages : messagesText (request.messages.map fun _ => encoder.messages) =
      messagesText (request.messages.map (·.map codec.message)) := by
    rw [h.messages]
    cases request.messages <;> rfl
  rw [limitRequest, length_text hne, text_eq hne, ← hmessages, ← h.messageBytes,
    ← List.length_map codec.message, ← h.messages]
  rfl

/-- **One call** answers with the request as it is encoded at once. -/
theorem Keeps.encode (h : encoder.Keeps codec kept) (hextends : kept <+: request.messages.getD []) :
    (encoder.encode codec request).2 = limitRequest (marshalRequest codec request) ∧
      ∃ kept', kept' <+: request.messages.getD [] ∧
        (encoder.encode codec request).1.Keeps codec kept' := by
  unfold ChatRequestEncoder.encode marshalRequest
  cases hmetadata : request.metadata codec with
  | none => exact ⟨rfl, kept, hextends, h⟩
  | some metadata =>
    have hne := metadata_ne_nil hmetadata
    obtain ⟨rest, hrest⟩ := hextends
    have hlength : encoder.messages.length = kept.length := by simp [h.messages]
    have hdrop : (request.messages.getD []).drop encoder.messages.length = rest := by
      rw [← hrest, hlength, List.drop_left]
    have hreset : ¬ (request.messages.getD []).length < encoder.messages.length := by
      rw [← hrest, List.length_append]
      omega
    obtain ⟨more, hmore, hkeeps, hdone⟩ := h.append
    simp only [if_neg hreset, hdrop, Option.map_some]
    rcases hresult : ChatRequestEncoder.append codec rest encoder with ⟨encoder', done⟩
    rw [hresult] at hkeeps hdone
    cases done with
    | true =>
      obtain rfl := (hdone.resolve_right nofun).2
      rw [hrest] at hkeeps
      exact ⟨hkeeps.write hne, _, List.prefix_rfl, hkeeps⟩
    | false =>
      -- the messages alone are over the limit
      have hlarge := (hdone.resolve_left nofun).2
      refine ⟨?_, kept ++ more, ?_, hkeeps⟩
      · have hsome : request.messages.isNone = false := by
          cases hnone : request.messages with
          | none => simp_all
          | some messages => rfl
        rw [hrest] at hlarge
        rw [limitRequest, length_text hne, hsome, if_pos]
        simp only [Bool.false_eq_true, if_false]
        omega
      · rw [← hrest]
        exact (List.prefix_append_right_inj kept).mpr hmore

end Request

/-- The answers of an encoder that has kept some messages of every request. -/
theorem Keeps.encodeAll {requests} (h : encoder.Keeps codec kept)
    (hkept : ∀ request ∈ requests, kept <+: request.messages.getD [])
    (hextends : requests.Pairwise fun a b => a.messages.getD [] <+: b.messages.getD []) :
    encodeAll codec requests encoder =
      requests.map fun request => limitRequest (marshalRequest codec request) := by
  induction requests generalizing encoder kept with
  | nil => rfl
  | cons request requests ih =>
    obtain ⟨hfirst, -⟩ := List.forall_mem_cons.mp hkept
    obtain ⟨hanswer, kept', hkept', hkeeps⟩ := h.encode hfirst
    obtain ⟨hlater, hextends⟩ := List.pairwise_cons.mp hextends
    rw [ChatRequestEncoder.encodeAll, List.map_cons, hanswer,
      ih hkeeps (fun next hnext => hkept'.trans (hlater next hnext)) hextends]

/-- **All calls** of a loop answer with the requests as they are encoded at once. -/
theorem encodeAll_eq_marshal (requests : List (ChatRequest Message Tools))
    (hextends : requests.IsChain fun a b => a.messages.getD [] <+: b.messages.getD []) :
    encodeAll codec requests {} =
      requests.map fun request => limitRequest (marshalRequest codec request) := by
  have : IsTrans (ChatRequest Message Tools) fun a b => a.messages.getD [] <+: b.messages.getD [] :=
    ⟨fun _ _ _ => List.IsPrefix.trans⟩
  exact Keeps.encodeAll ⟨rfl, rfl, Nat.zero_le _⟩ (fun _ _ => List.nil_prefix)
    (List.isChain_iff_pairwise.mp hextends)

/-- Messages that are their own encodings. -/
def rawCodec : ChatCodec Bytes Unit where
  model name := ascii ("\"" ++ name ++ "\"")
  message := id
  tools _ := some (ascii "null")
  temperature _ := none

/-- The second call appends to the message that the first one has encoded. -/
theorem encodeAll_eq_marshal_raw :
    encodeAll rawCodec [⟨"m", some [ascii "1"], (), none⟩,
        ⟨"m", some [ascii "1", ascii "2"], (), none⟩] {} =
      [.ok (ascii "\x7b\"model\":\"m\",\"messages\":[1],\"tools\":null\x7d"),
        .ok (ascii "\x7b\"model\":\"m\",\"messages\":[1,2],\"tools\":null\x7d")] := by
  rw [encodeAll_eq_marshal _ (by decide +kernel)]
  decide +kernel

end ChatRequestEncoder

end EmbyAuto
