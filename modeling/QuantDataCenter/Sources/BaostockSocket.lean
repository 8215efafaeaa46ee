import Mathlib.Data.Int.Notation
import Mathlib.Data.List.Infix
import Mathlib.Data.List.TakeDrop

/-!
Receiving one response from the Baostock socket (`sources/baostock/client.py`,
`_safe_baostock_send_msg`): chunks are collected until what was received ends with the end mark, and
a compressed response is unpacked by the length in its header.
-/

set_option autoImplicit false
set_option relaxedAutoImplicit false

namespace QuantDataCenter.Sources.Baostock

/-- `BaostockError` and its two kinds that end a session. -/
inductive BaostockError where
  | error (message : String)
  | timeout (message : String)
  | connection (message : String)
  deriving DecidableEq

/-- `_BAOSTOCK_MESSAGE_END`, `<![CDATA[]]>` and a line end. -/
def messageEnd : List UInt8 := [60, 33, 91, 67, 68, 65, 84, 65, 91, 93, 93, 62, 10]

/-- The constants of the `baostock` package, and the decoders of the standard library. -/
structure Protocol where
  headerLength : ℕ
  split : Char
  compressedTypes : List String
  decode : List UInt8 → Option String
  int : String → Option ℤ
  decompress : List UInt8 → Option (List UInt8)

/-- `data[start:stop]`; a negative stop counts from the end. -/
def slice (data : List UInt8) (start : ℕ) (stop : ℤ) : List UInt8 :=
  let last := if stop < 0 then (data.length + stop).toNat else stop.toNat
  (data.take last).drop start

variable (p : Protocol)

/-- `_decode_baostock_response`; `none` when any part of it raises. -/
def decoded (received : List UInt8) : Option String := do
  let head ← p.decode (received.take p.headerLength)
  match (head.toList.splitOn p.split).map String.ofList with
  | _ :: kind :: length :: _ =>
    if kind ∈ p.compressedTypes then do
      let n ← p.int length
      let body ← p.decompress (slice received p.headerLength (p.headerLength + n))
      let text ← p.decode body
      some (head ++ text)
    else p.decode received
  | _ => p.decode received

def decodeResponse (received : List UInt8) : Except BaostockError String :=
  match decoded p received with
  | some text => .ok text
  | none => .error (.connection "Baostock socket returned malformed response")

/-- One turn of the receiving loop: the deadline has passed, or what `recv` does. -/
inductive Turn where
  | expired
  | chunk (bytes : List UInt8)
  | timeoutError
  | osError (message : String)

/-- The receiving loop; `none` while it still waits. `seconds` is the timeout as it is printed. -/
def receive (seconds : String) : List UInt8 → List Turn → Option (Except BaostockError String)
  | _, [] => none
  | received, turn :: turns =>
    match turn with
    | .expired | .timeoutError =>
      some (.error (.timeout ("Baostock socket receive timed out after " ++ seconds ++ "s")))
    | .osError message =>
      some (.error (.connection ("Baostock socket operation failed: " ++ message)))
    | .chunk bytes =>
      if bytes = [] then
        some (.error (.connection "Baostock socket closed connection during receive"))
      else if messageEnd <:+ received ++ bytes then some (decodeResponse p (received ++ bytes))
      else receive seconds (received ++ bytes) turns

def Turn.bytes : Turn → List UInt8
  | .chunk bytes => bytes
  | _ => []

/-- What `send` and `sendall` raise. -/
inductive SendFailure where
  | timeoutError
  | osError (message : String)

/-- `_safe_baostock_send_msg`. -/
def safeBaostockSendMsg (seconds : String) (connected : Bool) (send : Option SendFailure)
    (turns : List Turn) : Option (Except BaostockError String) :=
  if connected = false then some (.error (.connection "Baostock socket is not connected"))
  else match send with
    | some .timeoutError =>
      some (.error (.timeout ("Baostock socket receive timed out after " ++ seconds ++ "s")))
    | some (.osError message) =>
      some (.error (.connection ("Baostock socket operation failed: " ++ message)))
    | none => receive p seconds [] turns

/-! Compressed responses -/

/-- A compressed response: its header gives the length of the body, no front of the body can be
decompressed, and the end mark does not stand in the header. -/
structure Compressed (message : List UInt8) (head : String) (size : ℕ) : Prop where
  header : p.decode (message.take p.headerLength) = some head
  parts : ∃ first kind length rest, (head.toList.splitOn p.split).map String.ofList =
      first :: kind :: length :: rest ∧
    kind ∈ p.compressedTypes ∧ p.int length = some (size : ℤ)
  whole : p.headerLength + size ≤ message.length
  truncated : ∀ k < size, p.decompress ((message.drop p.headerLength).take k) = none
  noMark : ∀ k < p.headerLength, ¬messageEnd <:+ message.take k

private theorem slice_eq (data : List UInt8) (start n : ℕ) :
    slice data start (start + n) = (data.drop start).take n := by
  have hstop : ¬((start : ℤ) + n < 0) := by omega
  unfold slice
  simp only [hstop, if_false]
  rw [List.take_drop]
  rfl

variable {p} {message : List UInt8} {head : String} {size : ℕ}

/-- A front of the message that has the header is unpacked as the message is, or not at all. -/
private theorem Compressed.decoded_front (m : Compressed p message head size) {k : ℕ}
    (hk : p.headerLength ≤ k) {text : String} (h : decoded p (message.take k) = some text) :
    decoded p message = some text := by
  obtain ⟨first, kind, length, rest, hparts, hkind, hlength⟩ := m.parts
  have hhead : (message.take k).take p.headerLength = message.take p.headerLength := by
    rw [List.take_take, min_eq_left hk]
  have hfront : ((message.take k).drop p.headerLength).take size =
      (message.drop p.headerLength).take (min size (k - p.headerLength)) := by
    rw [List.drop_take, List.take_take]
  unfold decoded at h ⊢
  rw [hhead] at h
  rw [m.header] at h ⊢
  simp only [Option.bind_eq_bind, Option.bind_some, hparts, hkind, if_true, hlength, slice_eq,
    hfront] at h ⊢
  by_cases hsize : size ≤ k - p.headerLength
  · rwa [min_eq_left hsize] at h
  · rw [min_eq_right (by omega), m.truncated _ (by omega)] at h
    cases h

private theorem decodeResponse_ok {received : List UInt8} {text : String} :
    decodeResponse p received = .ok text ↔ decoded p received = some text := by
  unfold decodeResponse
  cases decoded p received with
  | none => simp
  | some t => simp

/-- However a compressed response is split into chunks, and wherever the bytes stop, a text that is
returned is the text of the whole response. -/
theorem compressed_response_whole (m : Compressed p message head size)
    {seconds : String} {connected : Bool} {send : Option SendFailure} {turns : List Turn}
    (hsent : turns.flatMap Turn.bytes <+: message) {text : String}
    (h : safeBaostockSendMsg p seconds connected send turns = some (.ok text)) :
    decodeResponse p message = .ok text := by
  have hloop : ∀ (turns : List Turn) (received : List UInt8),
      received ++ turns.flatMap Turn.bytes <+: message →
        receive p seconds received turns = some (.ok text) → decodeResponse p message = .ok text := by
    intro turns
    induction turns with
    | nil => exact fun received _ h => by cases h
    | cons turn turns ih =>
      intro received hprefix h
      cases turn with
      | expired => cases h
      | timeoutError => cases h
      | osError message => cases h
      | chunk bytes =>
        rw [receive] at h
        rw [List.flatMap_cons, ← List.append_assoc] at hprefix
        split_ifs at h with hclosed hend
        · cases h
        · -- the mark can end a chunk inside the body, but not inside the header
          have hfront : received ++ bytes = message.take (received ++ bytes).length :=
            List.prefix_iff_eq_take.mp ((List.prefix_append _ _).trans hprefix)
          have hlong : p.headerLength ≤ (received ++ bytes).length := by
            by_contra hshort
            exact m.noMark _ (not_le.mp hshort) (hfront ▸ hend)
          have htext := decodeResponse_ok.mp (Option.some.inj h)
          rw [hfront] at htext
          exact decodeResponse_ok.mpr (m.decoded_front hlong htext)
        · exact ih (received ++ bytes) hprefix h
  unfold safeBaostockSendMsg at h
  split_ifs at h
  · cases h
  · split at h
    · cases h
    · cases h
    · exact hloop turns [] hsent h

/-- The protocol, on responses of ASCII text that hold `ok`. -/
def okProtocol : Protocol where
  headerLength := 21
  split := '\x01'
  compressedTypes := ["96"]
  decode := fun bytes => if bytes.all (· < 128) then
    some (String.ofList (bytes.map fun b => Char.ofNat b.toNat)) else none
  int := fun s => if s.toList.all Char.isDigit then some (Nat.ofDigitChars 10 s.toList 0) else none
  decompress := fun bytes => if bytes = [120, 156, 203, 207, 6, 0, 1, 75, 0, 219] then
    some [111, 107] else none

def okHead : String := "00.8.80\x0196\x010000000010"

def okMessage : List UInt8 :=
  okHead.toList.map (fun c => UInt8.ofNat c.toNat) ++ [120, 156, 203, 207, 6, 0, 1, 75, 0, 219] ++
    messageEnd

theorem compressed_response_whole_ok : decodeResponse okProtocol okMessage = .ok (okHead ++ "ok") :=
  @compressed_response_whole okProtocol okMessage okHead 10
    ⟨by decide, ⟨"00.8.80", "96", "0000000010", [], by decide⟩, by decide, by decide, by decide⟩
    "60" true none [.chunk (okMessage.take 30), .chunk (okMessage.drop 30)] (by decide) _ (by decide)

/-- A response with one end mark, at its end, is returned as it is decoded, whatever the chunks. -/
theorem response_any_chunks (hmark : ∀ k < message.length, ¬messageEnd <:+ message.take k)
    (hend : messageEnd <:+ message) {chunks : List (List UInt8)} (hchunks : [] ∉ chunks)
    (hsent : chunks.flatten = message) (seconds : String) :
    safeBaostockSendMsg p seconds true none (chunks.map Turn.chunk) =
      some (decodeResponse p message) := by
  have hloop : ∀ (chunks : List (List UInt8)) (received : List UInt8), [] ∉ chunks → chunks ≠ [] →
      received ++ chunks.flatten = message →
        receive p seconds received (chunks.map Turn.chunk) = some (decodeResponse p message) := by
    intro chunks
    induction chunks with
    | nil => exact fun received _ hne => absurd rfl hne
    | cons bytes chunks ih =>
      intro received hnil _ hsent
      rw [List.mem_cons, not_or] at hnil
      rw [List.flatten_cons, ← List.append_assoc] at hsent
      rw [List.map_cons, receive, if_neg (Ne.symm hnil.1)]
      by_cases hlast : chunks = []
      · subst hlast
        rw [List.flatten_nil, List.append_nil] at hsent
        rw [hsent, if_pos hend]
      · obtain ⟨first, rest, hfirst⟩ := List.exists_cons_of_ne_nil hlast
        have hfirstne : first ≠ [] := fun hempty =>
          hnil.2 (hfirst ▸ hempty ▸ List.mem_cons_self)
        have hlength : (received ++ bytes).length < message.length := by
          rw [← hsent, hfirst]
          simp only [List.flatten_cons, List.length_append]
          have hpos := List.length_pos_iff.mpr hfirstne
          omega
        have hfront : received ++ bytes = message.take (received ++ bytes).length :=
          List.prefix_iff_eq_take.mp ⟨chunks.flatten, hsent⟩
        rw [if_neg fun hmid => hmark _ hlength (hfront ▸ hmid)]
        exact ih (received ++ bytes) hnil.2 hlast hsent
  refine hloop chunks [] hchunks (fun hnone => ?_) hsent
  rw [← hsent, hnone] at hend
  have hlength := hend.length_le
  exact absurd hlength (by decide)

theorem response_any_chunks_ok :
    safeBaostockSendMsg okProtocol "60" true none ([okMessage.take 5, okMessage.drop 5].map Turn.chunk) =
      some (decodeResponse okProtocol okMessage) :=
  response_any_chunks (by decide) (by decide) (by decide) (by decide) "60"

end QuantDataCenter.Sources.Baostock
