import LinkQualityFabric.Core.Hash

/-! Frames on a connection: `src/transport/frame.cpp`, and the reading side of `src/transport/server.cpp`.

A frame is a header of two little-endian words, the length and the checksum of the payload, and a payload
whose first byte is the message type. The receiver reads a header and then a payload from a stream that
arrives in pieces of any size, between wake-ups of its channel; how the pieces are cut does not matter. -/
namespace Lqf
open Foundations
set_option autoImplicit false

structure FrameLimits where
  maxFrameBytes : UInt32 := 1048576

/-- The message type is its byte: every byte is a value of the enumeration of the source. -/
structure MessageFrame where
  type : UInt8
  body : Bytes
  deriving DecidableEq

-- `Hello` to `PolicyDocument`, `Welcome` to `PolicyDocumentReply`, and `Error`.
def typeIsKnown (raw : UInt8) : Bool := (1 ≤ raw && raw ≤ 14) || (64 ≤ raw && raw ≤ 77) || raw = 127

namespace FrameLimits

def ceiling : ℕ := 67108864

def limit (limits : FrameLimits) : ℕ :=
  if ceiling < limits.maxFrameBytes.toNat then ceiling else limits.maxFrameBytes.toNat

end FrameLimits

def encodeFrame (limits : FrameLimits) (frame : MessageFrame) : Outcome Bytes := do
  refuseIf (frame.type = 0 ∨ typeIsKnown frame.type = false) .invalid (text "message type is not recognised")
  refuseIf (2 ^ 64 ≤ frame.body.length + 1) .overflow (text "frame size overflow")
  refuseIf (limits.limit < frame.body.length + 1) .limitExceeded
    (text "frame of " ++ formatNat (frame.body.length + 1) ++ text " bytes exceeds the limit of " ++
      formatNat limits.limit)
  let payload := frame.type :: frame.body
  return leBytes 4 payload.length ++ leBytes 4 (crc32c payload).toNat ++ payload

def decodeFrameHeader (limits : FrameLimits) (header : Bytes) : Outcome (ℕ × UInt32) := do
  let payloadLength := leValue (header.take 4)
  refuseIf (payloadLength < 1) .protocol (text "frame length is below the minimum")
  refuseIf (limits.limit < payloadLength) .protocol
    (text "frame length of " ++ formatNat payloadLength ++ text " exceeds the limit of " ++ formatNat limits.limit)
  return (payloadLength, UInt32.ofNat (leValue ((header.drop 4).take 4)))

def decodeFramePayload (payload : Bytes) (payloadCrc : UInt32) : Outcome MessageFrame :=
  match payload with
  | [] => fail .protocol (text "frame payload is empty")
  | rawType :: body => do
    refuseIf (crc32c payload ≠ payloadCrc) .corrupt (text "frame checksum does not match")
    refuseIf (typeIsKnown rawType = false) .protocol (text "frame message type is not recognised")
    return ⟨rawType, body⟩

/-! ## The connection -/

/-- What a wait for the socket and the wake-up channel ends with. Bytes that arrived together may be taken
by several calls of `recv_some`. -/
inductive SocketEvent where
  | woken (stop : Bool)
  | unready
  | arrived (segment : Bytes)
  | failed (status : Status)

/-- The events to come, after which the peer has closed, and the stop flag. -/
structure Connection where
  events : List SocketEvent
  stopRequested : Bool

def peerClosed : Status := ⟨.cancelled, text "peer closed the connection"⟩

def readExactInterruptible : List SocketEvent → Bool → ℕ → Outcome Bytes × Connection
  | events, stop, 0 => (.ok [], ⟨events, stop⟩)
  | events, true, _ + 1 => (fail .cancelled (text "the server is stopping"), ⟨events, true⟩)
  | [], false, _ + 1 => (.error peerClosed, ⟨[], false⟩)
  | .woken stop :: rest, false, size + 1 => readExactInterruptible rest stop (size + 1)
  | .unready :: rest, false, size + 1 => readExactInterruptible rest false (size + 1)
  | .failed status :: rest, false, _ + 1 => (.error status, ⟨rest, false⟩)
  | .arrived segment :: rest, false, size + 1 =>
    if segment = [] then (.error peerClosed, ⟨rest, false⟩)
    else if segment.length ≤ size + 1 then
      let read := readExactInterruptible rest false (size + 1 - segment.length)
      (read.1.map (segment ++ ·), read.2)
    else (.ok (segment.take (size + 1)), ⟨.arrived (segment.drop (size + 1)) :: rest, false⟩)

inductive Ending where
  | stopping
  | unread (status : Status)
  | refused (status : Status)
  | running
  deriving DecidableEq

/-- The frames `connection_loop` hands to `dispatch` in a number of rounds, and how it ends. -/
def connectionLoop (limits : FrameLimits) : ℕ → Connection → List MessageFrame × Ending
  | 0, _ => ([], .running)
  | rounds + 1, connection =>
    if connection.stopRequested then ([], .stopping)
    else
      match readExactInterruptible connection.events connection.stopRequested 8 with
      | (.error status, _) => ([], .unread status)
      | (.ok header, next) =>
        match decodeFrameHeader limits header with
        | .error status => ([], .refused status)
        | .ok (payloadLength, payloadCrc) =>
          match readExactInterruptible next.events next.stopRequested payloadLength with
          | (.error status, _) => ([], .unread status)
          | (.ok payload, final) =>
            match decodeFramePayload payload payloadCrc with
            | .error status => ([], .refused status)
            | .ok frame =>
              let later := connectionLoop limits rounds final
              (frame :: later.1, later.2)

/-! ## Reading what was sent -/

namespace SocketEvent

def Quiet : SocketEvent → Prop
  | .woken stop => stop = false
  | .unready => True
  | .arrived segment => segment ≠ []
  | .failed _ => False

def segment : SocketEvent → Bytes
  | .arrived segment => segment
  | _ => []

end SocketEvent

def pending (events : List SocketEvent) : Bytes := events.flatMap SocketEvent.segment

variable {limits : FrameLimits} {events : List SocketEvent}

theorem read_quiet {wanted beyond : Bytes} (hquiet : ∀ event ∈ events, event.Quiet)
    (hpending : pending events = wanted ++ beyond) :
    ∃ later, readExactInterruptible events false wanted.length = (.ok wanted, ⟨later, false⟩) ∧
      (∀ event ∈ later, event.Quiet) ∧ pending later = beyond := by
  induction events generalizing wanted with
  | nil =>
    obtain ⟨rfl, rfl⟩ := List.append_eq_nil_iff.mp hpending.symm
    exact ⟨[], rfl, hquiet, rfl⟩
  | cons event rest ih =>
    obtain ⟨hevent, hrest⟩ := List.forall_mem_cons.mp hquiet
    cases wanted with
    | nil => exact ⟨event :: rest, by simp [readExactInterruptible], hquiet, hpending⟩
    | cons first wanted =>
      cases event with
      | woken stop =>
        obtain rfl : stop = false := hevent
        exact ih hrest hpending
      | unready => exact ih hrest hpending
      | failed status => exact hevent.elim
      | arrived segment =>
        rw [List.length_cons, readExactInterruptible, if_neg hevent]
        have hcut : (∃ more, first :: wanted = segment ++ more ∧ pending rest = more ++ beyond) ∨
            ∃ left, left ≠ [] ∧ segment = first :: wanted ++ left ∧ beyond = left ++ pending rest := by
          rcases List.append_eq_append_iff.mp hpending with hmore | ⟨left, hsegment, hleft⟩
          · exact .inl hmore
          · by_cases hnone : left = []
            · subst hnone
              exact .inl ⟨[], by simpa [SocketEvent.segment] using hsegment.symm, hleft.symm⟩
            · exact .inr ⟨left, hnone, hsegment, hleft⟩
        rcases hcut with ⟨more, hwanted, hmore⟩ | ⟨left, hnone, rfl, rfl⟩
        · obtain ⟨later, hread, hlater⟩ := ih hrest hmore
          have hlength : wanted.length + 1 = segment.length + more.length := by
            rw [← List.length_append, ← hwanted, List.length_cons]
          refine ⟨later, ?_, hlater⟩
          rw [if_pos (by omega), show wanted.length + 1 - segment.length = more.length by omega, hread, hwanted]
          rfl
        · have hlong := List.length_pos_of_ne_nil hnone
          rw [if_neg (by simp; omega), ← @List.length_cons _ first, List.take_left, List.drop_left]
          exact ⟨_, rfl, List.forall_mem_cons.mpr ⟨hnone, hrest⟩, rfl⟩

theorem read_closed (hquiet : ∀ event ∈ events, event.Quiet) (hpending : pending events = []) (size : ℕ) :
    ∃ next, readExactInterruptible events false (size + 1) = (.error peerClosed, next) := by
  induction events with
  | nil => exact ⟨_, rfl⟩
  | cons event rest ih =>
    obtain ⟨hevent, hrest⟩ := List.forall_mem_cons.mp hquiet
    obtain ⟨hsegment, hpending⟩ := List.append_eq_nil_iff.mp hpending
    cases event with
    | woken stop =>
      obtain rfl : stop = false := hevent
      exact ih hrest hpending
    | unready => exact ih hrest hpending
    | failed status => exact hevent.elim
    | arrived segment => exact absurd hsegment hevent

theorem encodeFrame_decodes {frame : MessageFrame} {bytes : Bytes} (h : encodeFrame limits frame = .ok bytes) :
    ∃ header payload payloadCrc, bytes = header ++ payload ∧ header.length = 8 ∧
      decodeFrameHeader limits header = .ok (payload.length, payloadCrc) ∧
      decodeFramePayload payload payloadCrc = .ok frame := by
  simp only [encodeFrame, Outcome.check_bind_eq_ok, Outcome.refuseIf_eq_ok, not_or, Nat.not_lt] at h
  obtain ⟨⟨-, htype⟩, -, hlimit, hbytes⟩ := h
  have hlength : (frame.type :: frame.body).length < 256 ^ 4 := by
    have hceiling : limits.limit ≤ FrameLimits.ceiling := by
      unfold FrameLimits.limit
      split_ifs <;> omega
    have hfits : FrameLimits.ceiling < 256 ^ 4 := by decide
    rw [List.length_cons]
    omega
  have hcrc : (crc32c (frame.type :: frame.body)).toNat < 256 ^ 4 := UInt32.toNat_lt _
  refine ⟨_, _, crc32c (frame.type :: frame.body), (Except.ok.inj hbytes).symm, by simp, ?_, ?_⟩
  · have hvalue := leValue_leBytes_of_lt hlength
    rw [List.length_cons] at hvalue
    have hnot : ¬limits.limit < frame.body.length + 1 := by omega
    simp [decodeFrameHeader, hvalue, refuseIf, hnot, leValue_leBytes_of_lt hcrc, List.take_of_length_le]
  · simp [decodeFramePayload, refuseIf, htype]

theorem framing_is_lossless {frames : List MessageFrame} {encodings : List Bytes}
    (hencoded : List.Forall₂ (fun frame bytes => encodeFrame limits frame = .ok bytes) frames encodings)
    (hquiet : ∀ event ∈ events, event.Quiet) (hsplit : pending events = encodings.flatten)
    {rounds : ℕ} (hrounds : frames.length < rounds) :
    connectionLoop limits rounds ⟨events, false⟩ = (frames, .unread peerClosed) := by
  obtain ⟨rounds, rfl⟩ : ∃ more, rounds = more + 1 := ⟨rounds - 1, by omega⟩
  induction hencoded generalizing events rounds with
  | nil =>
    obtain ⟨next, hread⟩ := read_closed hquiet hsplit 7
    unfold connectionLoop
    simp [hread]
  | @cons frame bytes frames encodings hencode _ ih =>
    obtain ⟨header, payload, payloadCrc, rfl, hheader, hdecoded, hframe⟩ := encodeFrame_decodes hencode
    rw [List.flatten_cons, List.append_assoc] at hsplit
    obtain ⟨events', hread, hquiet', hpending'⟩ := read_quiet hquiet hsplit
    obtain ⟨events'', hread', hquiet'', hpending''⟩ := read_quiet hquiet' hpending'
    obtain ⟨more, rfl⟩ : ∃ more, rounds = more + 1 := ⟨rounds - 1, by simp at hrounds; omega⟩
    have hlater := ih hquiet'' hpending'' more (by simpa using hrounds)
    rw [hheader] at hread
    unfold connectionLoop
    simp [hread, hdecoded, hread', hframe, hlater]

theorem cut_and_woken_frames : ∃ first second, encodeFrame {} ⟨1, [7]⟩ = .ok first ∧
    encodeFrame {} ⟨1, [8, 9]⟩ = .ok second ∧
    connectionLoop {} 3 ⟨[.arrived (first.take 3), .woken false, .arrived (first.drop 3 ++ second.take 9), .unready,
      .arrived (second.drop 9)], false⟩ = ([⟨1, [7]⟩, ⟨1, [8, 9]⟩], .unread peerClosed) := by
  refine ⟨_, _, rfl, rfl, framing_is_lossless (.cons rfl (.cons rfl .nil)) ?_ (by decide +kernel) (by decide)⟩
  simp [SocketEvent.Quiet]

end Lqf
