import FramePacing.Proofs.Recording.Framing
import FramePacing.Proofs.Recording.RoundTrip

/-!
# A recording that is cut short loses only its tail

A record of which bytes are missing is never read as an event, whichever kind it is and wherever the cut falls. Too
little is left of it for any other record, so nothing is read behind the cut either. What a cut recording decodes to is
therefore the longest beginning of its events that fits the bytes, `Recording.LongestWithin`, and no more however often
it is asked for.
-/

namespace FramePacing

namespace Event

/-! ### Sizes -/

/-- Behind its tag an event is a record of the codec that the tag stands for. -/
theorem length_of_record {α : Type} {c : Codec α} {of : α → Event} {tag : UInt8} {n : Nat} {s rest : List UInt8}
    {e : Event} (hc : c.Framed n) (hencode : ∀ a, (of a).encode = tag :: c.write a)
    (h : Prod.map (Option.map of) id (c.read s) = (some e, rest)) :
    e.encode.length = n + 1 ∧ s.length = n + rest.length := by
  obtain ⟨hvalue, hrest⟩ := Prod.mk.inj h
  obtain ⟨a, ha, rfl⟩ := Option.map_eq_some_iff.1 hvalue
  obtain ⟨front, rfl, hlength, -⟩ := hc.front (Prod.ext ha hrest)
  rw [hencode, List.length_cons, hc.length_write, List.length_append, hlength]
  exact ⟨rfl, rfl⟩

/-- An event that is read takes up the bytes that it has when it is written, nine at least. -/
theorem length_of_next {s rest : List UInt8} {e : Event} (h : next s = (some e, rest)) :
    9 ≤ e.encode.length ∧ s.length = e.encode.length + rest.length := by
  cases s with
  | nil => cases h
  | cons tag s =>
    have hsize : ∃ n, 8 ≤ n ∧ e.encode.length = n + 1 ∧ s.length = n + rest.length := by
      unfold next body at h
      dsimp only at h
      split at h
      · exact ⟨85, by decide, length_of_record Codec.framed_decisionEvent (fun _ => rfl) h⟩
      · exact ⟨28, by decide, length_of_record Codec.framed_qualityEvent (fun _ => rfl) h⟩
      · exact ⟨34, by decide, length_of_record Codec.framed_renderEvent (fun _ => rfl) h⟩
      · exact ⟨10, by decide, length_of_record Codec.framed_notifyEvent (fun _ => rfl) h⟩
      · exact ⟨8, by decide, length_of_record Codec.framed_resetEvent (fun _ => rfl) h⟩
      · cases h
    obtain ⟨n, hn, hencode, hs⟩ := hsize
    rw [List.length_cons]
    omega

theorem next_of_short {s : List UInt8} (h : s.length < 9) : (next s).1 = none := by
  cases hnext : next s with
  | mk e? rest =>
    cases e? with
    | none => rfl
    | some e =>
      have hlength := length_of_next hnext
      omega

/-! ### Reading on -/

/-- What a number of reads yield, one behind the other, whether or not the one before has found an event. -/
def poll : Nat → List UInt8 → List (Option Event)
  | 0, _ => []
  | n + 1, s => (next s).1 :: poll n (next s).2

theorem poll_of_short {s : List UInt8} (h : s.length < 9) (n : Nat) : poll n s = List.replicate n none := by
  induction n generalizing s with
  | zero => rfl
  | succ n ih =>
    have hrest : (next s).2.length < 9 := by
      cases s with
      | nil => exact h
      | cons tag s => exact Nat.lt_trans (length_next_lt (List.cons_ne_nil tag s)) h
    rw [poll, next_of_short h, ih hrest, List.replicate_succ]

/-! ### Cuts -/

/-- A record that is cut behind its tag or further on is no event. -/
theorem next_cut_record {α : Type} {c : Codec α} {of : α → Event} {tag : UInt8} {a : α} {n k : Nat}
    (hbody : ∀ s, body tag s = Prod.map (Option.map of) id (c.read s)) (hc : c.Framed n) (h : c.Inverts a)
    (hk : k < (tag :: c.write a).length) :
    ∃ rest, next ((tag :: c.write a).take k) = (none, rest) ∧ rest.length < 8 := by
  cases k with
  | zero => exact ⟨[], rfl, by decide⟩
  | succ k =>
    rw [List.length_cons, hc.length_write] at hk
    obtain ⟨rest, hread, hrest⟩ := hc.cut h (Nat.lt_of_succ_lt_succ hk)
    refine ⟨rest, ?_, hrest⟩
    show body tag ((c.write a).take k) = _
    rw [hbody, hread]
    rfl

theorem next_cut (e : Event) {k : Nat} (hk : k < e.encode.length) :
    ∃ rest, next (e.encode.take k) = (none, rest) ∧ rest.length < 8 := by
  cases e with
  | decision e =>
    exact next_cut_record (fun _ => rfl) Codec.framed_decisionEvent (Codec.inverts_decisionEvent e) hk
  | quality e => exact next_cut_record (fun _ => rfl) Codec.framed_qualityEvent (Codec.inverts_qualityEvent e) hk
  | render e => exact next_cut_record (fun _ => rfl) Codec.framed_renderEvent (Codec.inverts_renderEvent e) hk
  | notify e => exact next_cut_record (fun _ => rfl) Codec.framed_notifyEvent (Codec.inverts_notifyEvent e) hk
  | reset e => exact next_cut_record (fun _ => rfl) Codec.framed_resetEvent (Codec.inverts_resetEvent e) hk

/-- Decoding ends where nothing is read. -/
theorem decode_of_next_none {s rest : List UInt8} (h : next s = (none, rest)) : decode s = ([], rest) := by
  rw [decode]
  split
  · next e rest' h' =>
    rw [h] at h'
    cases h'
  · next rest' h' =>
    rw [h] at h'
    cases h'
    rfl

end Event

namespace Recording

/-- Some events are the longest beginning of others whose recording has no more than `k` bytes. -/
structure LongestWithin (es : List Event) (k : Nat) (kept : List Event) : Prop where
  beginning : kept <+: es
  fits : (ofList kept).bytes.length ≤ k
  longest : ∀ other, other <+: es → (ofList other).bytes.length ≤ k → other <+: kept

variable {e : Event} {es kept : List Event} {k : Nat}

theorem length_bytes_cons (e : Event) (es : List Event) :
    (ofList (e :: es)).bytes.length = e.encode.length + (ofList es).bytes.length := by
  rw [bytes_ofList, bytes_ofList, List.flatMap_cons, List.length_append]

theorem LongestWithin.nil (k : Nat) : LongestWithin [] k [] where
  beginning := List.prefix_refl []
  fits := Nat.zero_le k
  longest := fun _ h _ => h

theorem LongestWithin.cons (h : LongestWithin es k kept) (e : Event) :
    LongestWithin (e :: es) (e.encode.length + k) (e :: kept) where
  beginning := List.cons_prefix_cons.2 ⟨rfl, h.beginning⟩
  fits := by
    rw [length_bytes_cons]
    exact Nat.add_le_add_left h.fits _
  longest := by
    intro other hother hfits
    cases other with
    | nil => exact List.nil_prefix
    | cons e' other =>
      obtain ⟨rfl, hrest⟩ := List.cons_prefix_cons.1 hother
      rw [length_bytes_cons] at hfits
      exact List.cons_prefix_cons.2 ⟨rfl, h.longest other hrest (Nat.le_of_add_le_add_left hfits)⟩

/-- Where the first event does not fit, none do. -/
theorem LongestWithin.of_lt (es : List Event) (h : k < e.encode.length) : LongestWithin (e :: es) k [] where
  beginning := List.nil_prefix
  fits := Nat.zero_le k
  longest := by
    intro other hother hfits
    cases other with
    | nil => exact List.prefix_refl []
    | cons e' other =>
      obtain ⟨rfl, -⟩ := List.cons_prefix_cons.1 hother
      rw [length_bytes_cons] at hfits
      omega

/-- The first bytes of a recording decode to the events that fit them, and fewer than eight bytes are left. -/
theorem decode_take (es : List Event) (k : Nat) :
    ∃ kept rest, Event.decode ((es.flatMap Event.encode).take k) = (kept, rest) ∧ rest.length < 8 ∧
      LongestWithin es k kept := by
  induction es generalizing k with
  | nil => exact ⟨[], [], by rw [List.flatMap_nil, List.take_nil, Event.decode_nil], by decide, .nil k⟩
  | cons e es ih =>
    rw [List.flatMap_cons]
    rcases Nat.lt_or_ge k e.encode.length with hk | hk
    · obtain ⟨rest, hnext, hrest⟩ := Event.next_cut e hk
      refine ⟨[], rest, ?_, hrest, .of_lt es hk⟩
      rw [List.take_append_of_le_length (Nat.le_of_lt hk), Event.decode_of_next_none hnext]
    · obtain ⟨k, rfl⟩ := Nat.exists_eq_add_of_le hk
      obtain ⟨kept, rest, hdecode, hrest, hkept⟩ := ih k
      refine ⟨e :: kept, rest, ?_, hrest, hkept.cons e⟩
      rw [List.take_length_add_append, Event.decode_of_next (Event.next_encode e _), hdecode]

/-- **Truncation**: the first `k` bytes of a recording decode to just the longest beginning of its events that fits
them, and reading on never finds another event. -/
theorem decode_truncated (es : List Event) (k : Nat) :
    LongestWithin es k (Event.decode ((ofList es).bytes.take k)).1 ∧
      ∀ n, Event.poll n (Event.decode ((ofList es).bytes.take k)).2 = List.replicate n none := by
  obtain ⟨kept, rest, hdecode, hrest, hkept⟩ := decode_take es k
  rw [bytes_ofList, hdecode]
  exact ⟨hkept, Event.poll_of_short (Nat.lt_trans hrest (by decide))⟩

/-- A reset is kept, and a report behind it that lacks its last three bytes is lost. -/
example :
    let reset : Event := .reset ⟨1, 0⟩
    let quality : Event := .quality ⟨3, ⟨.flood, 900, 20000, .origin⟩, true⟩
    (ofList [reset, quality]).bytes.length = 38 ∧ LongestWithin [reset, quality] 35 [reset] ∧
      Event.next (((ofList [reset, quality]).bytes.take 35).drop 9) = (none, [0, 0, 0, 0, 0, 0]) := by
  intro reset quality
  have hcut : (26 : Nat) < quality.encode.length := by decide
  exact ⟨rfl, (LongestWithin.of_lt [] hcut).cons reset, rfl⟩

end Recording

end FramePacing
