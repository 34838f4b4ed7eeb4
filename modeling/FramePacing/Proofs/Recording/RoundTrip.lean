import FramePacing.Proofs.Recording.Codec

/-!
# Recordings decode

Reading takes exactly one event off the front of a recording, whatever follows it. So a recording decodes
to its events and decoding goes on behind it as if it had begun there, and no two sequences of events
share a recording.
-/

namespace FramePacing

namespace Event

/-- A record is read by the codec that its tag stands for. -/
theorem next_record {α : Type} {c : Codec α} {of : α → Event} {tag : UInt8} {a : α}
    (hbody : ∀ s, body tag s = Prod.map (Option.map of) id (c.read s)) (h : c.Inverts a) (s : List UInt8) :
    next ((tag :: c.write a) ++ s) = (some (of a), s) := by
  change body tag (c.write a ++ s) = _
  rw [hbody, h]
  rfl

/-- The next event is the one in front, and only its bytes are read. -/
theorem next_encode (e : Event) (s : List UInt8) : next (e.encode ++ s) = (some e, s) := by
  cases e with
  | decision e => exact next_record (fun _ => rfl) (Codec.inverts_decisionEvent e) s
  | quality e => exact next_record (fun _ => rfl) (Codec.inverts_qualityEvent e) s
  | render e => exact next_record (fun _ => rfl) (Codec.inverts_renderEvent e) s
  | notify e => exact next_record (fun _ => rfl) (Codec.inverts_notifyEvent e) s
  | reset e => exact next_record (fun _ => rfl) (Codec.inverts_resetEvent e) s

theorem decode_nil : decode [] = ([], []) := by
  rw [decode]
  rfl

/-- Decoding goes on behind an event that was read. -/
theorem decode_of_next {s rest : List UInt8} {e : Event} (h : next s = (some e, rest)) :
    decode s = (e :: (decode rest).1, (decode rest).2) := by
  rw [decode]
  split
  · next e' rest' h' =>
    rw [h] at h'
    cases h'
    rfl
  · next rest' h' =>
    rw [h] at h'
    cases h'

theorem decode_flatMap_append (es : List Event) (b : List UInt8) :
    decode (es.flatMap encode ++ b) = (es ++ (decode b).1, (decode b).2) := by
  induction es with
  | nil => rfl
  | cons e es ih =>
    rw [List.flatMap_cons, List.append_assoc, decode_of_next (next_encode e _), ih]
    rfl

theorem encode_injective : Function.Injective encode := by
  intro e f h
  have he := next_encode e []
  rw [h, next_encode] at he
  exact (Option.some.inj (Prod.mk.inj he).1).symm

end Event

namespace Recording

theorem decode_bytes (es : List Event) : Event.decode (ofList es).bytes = (es, []) := by
  have h := Event.decode_flatMap_append es []
  rwa [Event.decode_nil, List.append_nil, List.append_nil, ← bytes_ofList] at h

/-- **Round trip**: decoding a recording gives its events and goes on behind it. A recording counts its
events, and events and recordings are told apart by their bytes. -/
theorem decode_recorded :
    (∀ (es : List Event) (b : List UInt8),
      Event.decode ((ofList es).bytes ++ b) = (es ++ (Event.decode b).1, (Event.decode b).2)) ∧
    (∀ es, Event.decode (ofList es).bytes = (es, [])) ∧
    (∀ es, (ofList es).count = es.length) ∧
    (Function.Injective fun es => (ofList es).bytes) ∧ Function.Injective Event.encode := by
  refine ⟨?_, decode_bytes, count_ofList, ?_, Event.encode_injective⟩
  · intro es b
    rw [bytes_ofList]
    exact Event.decode_flatMap_append es b
  · intro es fs h
    have hes := decode_bytes es
    rw [show (ofList es).bytes = (ofList fs).bytes from h, decode_bytes] at hes
    exact (Prod.mk.inj hes).1.symm

end Recording

end FramePacing
