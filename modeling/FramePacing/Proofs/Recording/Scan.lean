import Mathlib.Data.List.Forall2
import FramePacing.Proofs.Recording.NormalForm
import FramePacing.Proofs.Recording.Truncation

/-!
# Reading bytes of any origin

Nothing is asked of the bytes here: they may hold unknown tags, flags that are neither zero nor one, or the middle of a
record, and reading may go on where it has failed. Each read takes the next bytes in order and at least one of them, so
reading ends after as many reads as there are bytes, `Event.behind_eq_nil`. The events that are found are read from
records, `Event.forall₂_readFrom`, and writing them again leads to bytes of the same length, which are the same bytes
just if the records were canonical, `Event.Rewrites`.
-/

namespace FramePacing

namespace Event

/-- A read: the event that it finds, if it finds one, and the bytes that it takes. -/
structure Fetch where
  found : Option Event
  bytes : List UInt8

/-- A number of reads, one behind the other, whether or not the one before has found an event. -/
def fetches : Nat → List UInt8 → List Fetch
  | 0, _ => []
  | n + 1, s => ⟨(next s).1, s.take (s.length - (next s).2.length)⟩ :: fetches n (next s).2

/-- The bytes behind a number of reads. -/
def behind : Nat → List UInt8 → List UInt8
  | 0, s => s
  | n + 1, s => behind n (next s).2

/-- The events that were found. -/
def events (l : List Fetch) : List Event := l.filterMap Fetch.found

/-- The bytes of the reads that have found an event. -/
def records (l : List Fetch) : List (List UInt8) := (l.filter (·.found.isSome)).map Fetch.bytes

variable {s rest : List UInt8} {e : Event}

/-! ### Progress -/

theorem take_append_next (s : List UInt8) : s.take (s.length - (next s).2.length) ++ (next s).2 = s := by
  have hdrop := List.suffix_iff_eq_drop.1 (next_suffix s)
  calc s.take (s.length - (next s).2.length) ++ (next s).2
      = s.take (s.length - (next s).2.length) ++ s.drop (s.length - (next s).2.length) := congrArg _ hdrop
    _ = s := List.take_append_drop ..

theorem behind_succ (n : Nat) (s : List UInt8) : behind (n + 1) s = (next (behind n s)).2 := by
  induction n generalizing s with
  | zero => rfl
  | succ n ih => exact ih (next s).2

/-- The reads take the bytes in order. -/
theorem flatMap_fetches (n : Nat) (s : List UInt8) : (fetches n s).flatMap Fetch.bytes ++ behind n s = s := by
  induction n generalizing s with
  | zero => rfl
  | succ n ih =>
    rw [fetches, behind, List.flatMap_cons, List.append_assoc, ih]
    exact take_append_next s

/-- As long as there are bytes left, a read takes one at least. -/
theorem length_behind_succ_lt {n : Nat} (h : behind n s ≠ []) : (behind (n + 1) s).length < (behind n s).length := by
  rw [behind_succ]
  exact length_next_lt h

theorem length_behind_le (n : Nat) (s : List UInt8) : (behind n s).length ≤ s.length - n := by
  induction n with
  | zero => exact Nat.le_refl _
  | succ n ih =>
    by_cases hend : behind n s = []
    · rw [behind_succ, hend]
      exact Nat.zero_le _
    · have hlt := length_behind_succ_lt hend
      omega

theorem behind_eq_nil {n : Nat} (h : s.length ≤ n) : behind n s = [] := by
  have hle := length_behind_le n s
  exact List.eq_nil_of_length_eq_zero (by omega)

/-! ### What is found -/

theorem fetches_of_next_none (h : next s = (none, rest)) (n : Nat) :
    ∃ bytes, fetches (n + 1) s = ⟨none, bytes⟩ :: fetches n rest := by
  rw [fetches, h]
  exact ⟨_, rfl⟩

/-- A read that finds an event takes its record. -/
theorem fetches_of_next_some (h : next s = (some e, rest)) (n : Nat) :
    ∃ record, s = record ++ rest ∧ e.ReadFrom record ∧ fetches (n + 1) s = ⟨some e, record⟩ :: fetches n rest := by
  obtain ⟨record, rfl, hrecord⟩ := exists_readFrom_of_next h
  refine ⟨record, rfl, hrecord, ?_⟩
  rw [fetches, h, List.length_append, Nat.add_sub_cancel, List.take_left]

/-- Each event takes nine bytes at least. -/
theorem length_events_le (n : Nat) (s : List UInt8) :
    9 * (events (fetches n s)).length + (behind n s).length ≤ s.length := by
  induction n generalizing s with
  | zero => exact Nat.le_of_eq (Nat.zero_add _)
  | succ n ih =>
    have hrest := ih (next s).2
    rw [behind]
    cases hnext : next s with
    | mk e? rest =>
      rw [hnext] at hrest
      cases e? with
      | none =>
        obtain ⟨bytes, hfetches⟩ := fetches_of_next_none hnext n
        have hle := (next_suffix s).length_le
        rw [hnext] at hle
        rw [hfetches]
        exact Nat.le_trans hrest hle
      | some e =>
        obtain ⟨record, -, -, hfetches⟩ := fetches_of_next_some hnext n
        have hlength := length_of_next hnext
        rw [hfetches]
        show 9 * ((events (fetches n rest)).length + 1) + (behind n rest).length ≤ s.length
        dsimp only at hrest
        omega

/-- The events that are found are read from the records. -/
theorem forall₂_readFrom (n : Nat) (s : List UInt8) :
    List.Forall₂ ReadFrom (events (fetches n s)) (records (fetches n s)) := by
  induction n generalizing s with
  | zero => exact .nil
  | succ n ih =>
    cases hnext : next s with
    | mk e? rest =>
      cases e? with
      | none =>
        obtain ⟨bytes, hfetches⟩ := fetches_of_next_none hnext n
        rw [hfetches]
        exact ih rest
      | some e =>
        obtain ⟨record, -, hrecord, hfetches⟩ := fetches_of_next_some hnext n
        rw [hfetches]
        exact .cons hrecord (ih rest)

/-- Decoding reads as long as each read finds an event, and once more. -/
theorem fetches_decode (s : List UInt8) :
    (fetches (decode s).1.length s).map Fetch.found = (decode s).1.map some ∧
      next (behind (decode s).1.length s) = (none, (decode s).2) := by
  induction s using decode.induct with
  | case1 s e rest hnext ih =>
    obtain ⟨record, -, -, hfetches⟩ := fetches_of_next_some hnext (decode rest).1.length
    rw [decode_of_next hnext, List.length_cons, hfetches, behind, hnext, List.map_cons, List.map_cons, ih.1]
    exact ⟨rfl, ih.2⟩
  | case2 s rest hnext =>
    rw [decode_of_next_none hnext]
    exact ⟨rfl, hnext⟩

/-! ### Writing again -/

/-- Events that were read from some records, written again: as many bytes, which decode to the same events, and the
same bytes just if every record was canonical. -/
structure Rewrites (es : List Event) (records : List (List UInt8)) : Prop where
  length : (Recording.ofList es).bytes.length = records.flatten.length
  decode : decode (Recording.ofList es).bytes = (es, [])
  bytes_eq_iff : (Recording.ofList es).bytes = records.flatten ↔ ∀ record ∈ records, Canonical record

theorem rewrites_of_readFrom {es : List Event} {records : List (List UInt8)} (h : List.Forall₂ ReadFrom es records) :
    Rewrites es records := by
  refine ⟨?_, Recording.decode_bytes es, ?_⟩
  · induction h with
    | nil => rfl
    | cons hrecord _ ih =>
      rw [Recording.length_bytes_cons, List.flatten_cons, List.length_append, hrecord.length, ih]
  · induction h with
    | nil => simp
    | @cons e record es records hrecord _ ih =>
      rw [List.forall_mem_cons, ← hrecord.canonical, ← ih, Recording.bytes_ofList, Recording.bytes_ofList,
        List.flatMap_cons, List.flatten_cons]
      constructor
      · intro h
        exact List.append_inj h hrecord.length.symm
      · rintro ⟨h, h'⟩
        rw [h, h']

/-- **Any bytes**: however often bytes of any origin are read, the reads take them in order and each at least one as
long as there are any, so that nothing is left and found after as many reads as there are bytes. An event takes as many
bytes as it has when it is written, nine at least, and writing all that were found again gives their records in the
canonical form. Decoding is reading up to the first read that finds nothing. -/
theorem scanned_of_bytes (b : List UInt8) :
    (∀ n, (fetches n b).flatMap Fetch.bytes ++ behind n b = b) ∧
    (∀ n e, (next (behind n b)).1 = some e → (behind n b).length = e.encode.length + (behind (n + 1) b).length) ∧
    (∀ n, behind n b ≠ [] → (behind (n + 1) b).length < (behind n b).length) ∧
    (∀ n k, b.length ≤ n → behind n b = [] ∧ poll k (behind n b) = List.replicate k none) ∧
    (∀ n, (events (fetches n b)).length ≤ b.length / 9) ∧
    (∀ n, Rewrites (events (fetches n b)) (records (fetches n b))) ∧
    (fetches (decode b).1.length b).map Fetch.found = (decode b).1.map some ∧
    next (behind (decode b).1.length b) = (none, (decode b).2) := by
  refine ⟨fun n => flatMap_fetches n b, ?_, fun n => length_behind_succ_lt, ?_, ?_, ?_, fetches_decode b⟩
  · intro n e hfound
    rw [behind_succ]
    exact (length_of_next (Prod.ext hfound rfl)).2
  · intro n k hn
    have hend := behind_eq_nil hn
    rw [hend]
    exact ⟨rfl, poll_of_short (by decide) k⟩
  · intro n
    have hle := length_events_le n b
    omega
  · intro n
    exact rewrites_of_readFrom (forall₂_readFrom n b)

/-- Behind an unknown tag reading goes on with a paint whose flags are neither zero nor one: it is found, and written in
another form. -/
theorem scanned_of_bytes_malformed :
    let b : List UInt8 :=
      [5, 1, 0, 0, 0, 2, 0, 0, 0] ++ [9] ++ (3 :: 7 :: List.replicate 16 0 ++ 2 :: List.replicate 16 0)
    let reset : Event := .reset ⟨1, 2⟩
    let render : Event := .render ⟨.direct, 0, 0, true, 0, 0⟩
    b.length = 45 ∧ (fetches 3 b).map Fetch.found = [some reset, none, some render] ∧
      (fetches 1 b).flatMap Fetch.bytes ++ behind 1 b = b ∧
      (behind 2 b).length = render.encode.length + (behind 3 b).length ∧
      behind 1 b ≠ [] ∧ (behind 2 b).length < (behind 1 b).length ∧
      behind 45 b = [] ∧ poll 2 (behind 45 b) = [none, none] ∧
      ((Recording.ofList [reset, render]).bytes.length = (records (fetches 3 b)).flatten.length ∧
        decode (Recording.ofList [reset, render]).bytes = ([reset, render], []) ∧
        (Recording.ofList [reset, render]).bytes ≠ (records (fetches 3 b)).flatten) := by
  intro b reset render
  obtain ⟨hjoin, htaken, hprogress, hend, -, hrewrites, -⟩ := scanned_of_bytes b
  have hflag : ¬Codec.FlagForm [7] := by
    rintro (h | h) <;> cases h
  have hflags : ¬∀ record ∈ records (fetches 3 b), Canonical record :=
    fun h => hflag (h (b.drop 10) (.tail _ (.head _))).1
  have hleft : behind 1 b ≠ [] := List.cons_ne_nil 9 (b.drop 10)
  obtain ⟨hnil, hpoll⟩ := hend 45 2 (Nat.le_refl 45)
  exact ⟨rfl, rfl, hjoin 1, htaken 2 render rfl, hleft, hprogress 1 hleft, hnil, hpoll, (hrewrites 3).length,
    (hrewrites 3).decode, fun h => hflags ((hrewrites 3).bytes_eq_iff.1 h)⟩

end Event

end FramePacing
