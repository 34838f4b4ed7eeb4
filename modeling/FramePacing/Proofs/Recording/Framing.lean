import FramePacing.Proofs.Recording.Codec

/-!
# Records have a fixed size

`Codec.Framed c n` says that every value of `c` takes `n` bytes: so many are written, and a value that is read is made
of the `n` bytes in front and of no others. Where a read fails, the bytes have run out and fewer than eight are left, or
what was read makes no sense and would make none with more bytes behind it. Words are framed, and pairing and renaming
keep it. A value that is cut short is then never read, and little is left of it, `Codec.Framed.cut`.
-/

namespace FramePacing

namespace Codec

variable {α β : Type} {c : Codec α} {d : Codec β} {m n : Nat}

/-- Every value takes `n` bytes. -/
structure Framed (c : Codec α) (n : Nat) : Prop where
  length_write : ∀ a, (c.write a).length = n
  front : ∀ {s a rest}, c.read s = (some a, rest) →
    ∃ front, s = front ++ rest ∧ front.length = n ∧ ∀ t, c.read (front ++ t) = (some a, t)
  failure : ∀ {s rest}, c.read s = (none, rest) → rest.length < 8 ∨ ∀ t, c.read (s ++ t) = (none, rest ++ t)

/-! ### Combinations -/

theorem read_number_append {k : Nat} {front : List UInt8} (h : front.length = k) (t : List UInt8) :
    (number k).read (front ++ t) = (some (ofLittleEndian front), t) := by
  have hsplit : splitBytes k (front ++ t) = some (front, t) := splitBytes_eq_some_iff.2 ⟨rfl, h⟩
  unfold number
  dsimp only
  rw [hsplit]

theorem read_number_of_short {k : Nat} {s : List UInt8} (h : s.length < k) : (number k).read s = (none, s) := by
  unfold number
  dsimp only
  rw [splitBytes_eq_none_iff.2 h]

theorem framed_number {k : Nat} (hk : k ≤ 8) : (number k).Framed k where
  length_write a := length_littleEndian k a
  front := by
    intro s a rest h
    rcases Nat.lt_or_ge s.length k with hs | hs
    · rw [read_number_of_short hs] at h
      cases h
    · have hlength : (s.take k).length = k := List.length_take_of_le hs
      rw [← List.take_append_drop k s, read_number_append hlength] at h
      cases h
      exact ⟨s.take k, (List.take_append_drop k s).symm, hlength, read_number_append hlength⟩
  failure := by
    intro s rest h
    rcases Nat.lt_or_ge s.length k with hs | hs
    · rw [read_number_of_short hs] at h
      cases h
      exact .inl (by omega)
    · rw [← List.take_append_drop k s, read_number_append (List.length_take_of_le hs)] at h
      cases h

theorem read_pair_of_some {s rest : List UInt8} {a : α} (h : c.read s = (some a, rest)) (d : Codec β) :
    (c.pair d).read s = ((d.read rest).1.map (a, ·), (d.read rest).2) := by
  unfold Codec.pair
  dsimp only
  rw [h]

theorem read_pair_of_none {s rest : List UInt8} (h : c.read s = (none, rest)) (d : Codec β) :
    (c.pair d).read s = (none, rest) := by
  unfold Codec.pair
  dsimp only
  rw [h]

/-- Two values that are read are made of the bytes of the one and the bytes of the other. -/
theorem exists_of_read_pair (hc : c.Framed m) (hd : d.Framed n) {s rest : List UInt8} {p : α × β}
    (h : (c.pair d).read s = (some p, rest)) :
    ∃ front front', s = front ++ (front' ++ rest) ∧ front.length = m ∧ front'.length = n ∧
      (∀ t, c.read (front ++ t) = (some p.1, t)) ∧ ∀ t, d.read (front' ++ t) = (some p.2, t) := by
  cases hread : c.read s with
  | mk a? rest₁ =>
    cases a? with
    | none =>
      rw [read_pair_of_none hread] at h
      cases h
    | some a =>
      rw [read_pair_of_some hread] at h
      cases hread' : d.read rest₁ with
      | mk b? rest₂ =>
        rw [hread'] at h
        cases b? with
        | none => cases h
        | some b =>
          cases h
          obtain ⟨front, rfl, hlength, hfront⟩ := hc.front hread
          obtain ⟨front', rfl, hlength', hfront'⟩ := hd.front hread'
          exact ⟨front, front', rfl, hlength, hlength', hfront, hfront'⟩

theorem Framed.pair (hc : c.Framed m) (hd : d.Framed n) : (c.pair d).Framed (m + n) where
  length_write a := by
    show (c.write a.1 ++ d.write a.2).length = m + n
    rw [List.length_append, hc.length_write, hd.length_write]
  front := by
    intro s p rest h
    obtain ⟨front, front', rfl, hlength, hlength', hfront, hfront'⟩ := exists_of_read_pair hc hd h
    refine ⟨front ++ front', (List.append_assoc ..).symm, ?_, fun t => ?_⟩
    · rw [List.length_append, hlength, hlength']
    · rw [List.append_assoc, read_pair_of_some (hfront _), hfront']
      rfl
  failure := by
    intro s rest h
    cases hread : c.read s with
    | mk a? rest₁ =>
      cases a? with
      | none =>
        rw [read_pair_of_none hread] at h
        cases h
        refine (hc.failure hread).imp_right fun hfail t => ?_
        rw [read_pair_of_none (hfail t)]
      | some a =>
        obtain ⟨front, rfl, -, hfront⟩ := hc.front hread
        rw [read_pair_of_some hread] at h
        cases hread' : d.read rest₁ with
        | mk b? rest₂ =>
          rw [hread'] at h
          cases b? with
          | some b => cases h
          | none =>
            cases h
            refine (hd.failure hread').imp_right fun hfail t => ?_
            rw [List.append_assoc, read_pair_of_some (hfront _), hfail]
            rfl

theorem Framed.refine (hc : c.Framed n) (of : α → Option β) (form : β → α) : (c.refine of form).Framed n where
  length_write b := hc.length_write (form b)
  front := by
    intro s b rest h
    obtain ⟨hvalue, hrest⟩ := Prod.mk.inj h
    obtain ⟨a, ha, hof⟩ := Option.bind_eq_some_iff.1 hvalue
    obtain ⟨front, hs, hlength, hfront⟩ := hc.front (Prod.ext ha hrest)
    refine ⟨front, hs, hlength, fun t => ?_⟩
    show ((c.read (front ++ t)).1.bind of, (c.read (front ++ t)).2) = _
    rw [hfront, Option.bind_some, hof]
  failure := by
    intro s rest h
    obtain ⟨hvalue, hrest⟩ := Prod.mk.inj h
    cases hread : c.read s with
    | mk a? rest₁ =>
      rw [hread] at hvalue hrest
      cases hrest
      cases a? with
      | none =>
        refine (hc.failure hread).imp_right fun hfail t => ?_
        show ((c.read (s ++ t)).1.bind of, (c.read (s ++ t)).2) = _
        rw [hfail, Option.bind_none]
      | some a =>
        -- the form stands for no value, whatever comes behind it
        obtain ⟨front, rfl, -, hfront⟩ := hc.front hread
        refine .inr fun t => ?_
        show ((c.read (front ++ rest₁ ++ t)).1.bind of, (c.read (front ++ rest₁ ++ t)).2) = _
        rw [List.append_assoc, hfront]
        exact Prod.ext hvalue rfl

theorem Framed.map (hc : c.Framed n) (of : α → β) (form : β → α) : (c.map of form).Framed n :=
  hc.refine _ form

/-! ### What is cut short -/

/-- A value of which bytes are missing at the end is not read, and fewer than eight bytes are left. -/
theorem Framed.cut (hc : c.Framed n) {a : α} (h : c.Inverts a) {k : Nat} (hk : k < n) :
    ∃ rest, c.read ((c.write a).take k) = (none, rest) ∧ rest.length < 8 := by
  have hwhole := h []
  rw [List.append_nil, ← List.take_append_drop k (c.write a)] at hwhole
  cases hread : c.read ((c.write a).take k) with
  | mk b? rest =>
    cases b? with
    | some b =>
      obtain ⟨front, hfront, hlength, -⟩ := hc.front hread
      have hshort := congrArg List.length hfront
      rw [List.length_take, List.length_append] at hshort
      omega
    | none =>
      refine ⟨rest, rfl, (hc.failure hread).resolve_right fun hfail => ?_⟩
      rw [hfail] at hwhole
      cases hwhole

/-! ### Records -/

theorem framed_word {w : Width} {k : Nat} (hk : k ≤ 8) : (word k : Codec (Word w)).Framed k :=
  (framed_number hk).refine ..

theorem framed_flag : flag.Framed 1 := (framed_number (by decide)).map ..

theorem framed_count : count.Framed 8 := framed_word (by decide)

theorem framed_ticks : ticks.Framed 8 := framed_word (by decide)

theorem framed_time : time.Framed 8 := framed_ticks.map ..

theorem framed_decision : decision.Framed 9 := ((framed_number (by decide)).pair framed_time).refine ..

theorem framed_decisionEvent : decisionEvent.Framed 85 :=
  (framed_count.pair <| framed_time.pair <| framed_time.pair <| framed_time.pair <| framed_decision.pair <|
    framed_ticks.pair <| framed_ticks.pair <| framed_ticks.pair <| framed_ticks.pair <| framed_ticks.pair <|
    framed_word (by decide)).map ..

theorem framed_qualityMessage : qualityMessage.Framed 19 :=
  ((framed_flag.map ..).pair <| (framed_word (by decide)).pair <| framed_ticks.pair framed_time).map ..

theorem framed_qualityEvent : qualityEvent.Framed 28 :=
  (framed_count.pair <| framed_qualityMessage.pair framed_flag).map ..

theorem framed_renderEvent : renderEvent.Framed 34 :=
  ((framed_flag.map ..).pair <| framed_ticks.pair <| framed_ticks.pair <| framed_flag.pair <| framed_ticks.pair <|
    framed_ticks).map ..

theorem framed_notifyEvent : notifyEvent.Framed 10 := ((framed_word (by decide)).pair framed_ticks).map ..

theorem framed_resetEvent : resetEvent.Framed 8 :=
  ((framed_word (by decide)).pair (framed_word (by decide))).map ..

end Codec

end FramePacing
