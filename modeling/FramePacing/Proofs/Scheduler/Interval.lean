import FramePacing.Proofs.Scheduler.Reasons
import FramePacing.Proofs.Scheduler.Transcript

/-!
# The interval between frames

A scheduler holds a negative interval between frames for one that is not known yet. It knows it from the first
frame on, `State.Settled`, but a frame that is played to catch up is measured from the frame before, and that
may be one that waits and is not due yet. So the average turns negative once a frame *overtakes* the one ahead
of it by more than the average outweighs, and only then: `Scheduler.interval_known_iff`. As long as the interval
is known, no frame is left out on account of painting that costs nothing.
-/

namespace FramePacing

namespace State

variable {c : Config} {s s' : State} {sample : Sample} {now : StreamTime} {reply : Reply} {decision : Decision}

/-- The interval is known, or the next frame sets it. -/
def Settled (s : State) : Prop := s.frameDuration.val ≤ 0 ∨ 0 ≤ s.frameAvg.val

/-- The sample is drawn, and as soon as possible, although the frame before it is not due yet, and by so much that the
negative gap between the two outweighs the average. -/
def Overtakes (s : State) (c : Config) (sample : Sample) (now : StreamTime) (reply : Reply) : Prop :=
  s.Wanted c sample now reply ∧ s.Hastened c sample now reply ∧
    (now - s.lastDraw).val + (max 1 c.averagePeriod.val - 1) * s.intervalWith sample ≤ -max 1 c.averagePeriod.val

instance : Decidable (s.Overtakes c sample now reply) := inferInstanceAs (Decidable (_ ∧ _ ∧ _))

/-! ### One decision -/

theorem Settled.prepared (h : s.Settled) (hd : 0 < (c.compensate sample).duration.val) :
    0 ≤ (s.prepared c sample now reply).frameAvg.val := by
  rw [prepared_frameAvg]
  split
  · omega
  · next hrate =>
    have hduration : ¬ s.frameDuration.val ≤ 0 := by
      intro hle
      exact hrate (by simp [rateChanged, Word.le_iff, hle])
    rcases h with h | h
    · exact absurd h hduration
    · exact h

/-- A frame that catches up makes the average negative by overtaking, and not otherwise: a long pause counts as
no more than the stale interval. -/
theorem frameAvg_caughtUp (hstale : 0 ≤ c.staleInterval.val) (hf : 0 ≤ s.frameAvg.val) :
    0 ≤ (s.caughtUp c now).frameAvg.val ↔
      ¬ (now - s.lastDraw).val + (c.average.period.val - 1) * s.frameAvg.val ≤ -c.average.period.val := by
  have hp := c.average.one_le
  have hw : 0 ≤ (c.average.period.val - 1) * s.frameAvg.val := Int.mul_nonneg (by omega) hf
  have hneg : (c.average.mixed s.frameAvg (s.interval c now)).val < 0 ↔ _ := c.average.mixed_neg_iff hf
  rw [interval, Word.val_min] at hneg
  change 0 ≤ (c.average.mixed s.frameAvg (s.interval c now)).val ↔ _
  rw [interval]
  omega

theorem frameAvg_ruled (hstale : 0 ≤ c.staleInterval.val) (hs : s.Settled) (hlasts : sample.start < sample.stop)
    (hr : Ruled c s sample now reply decision s') : 0 ≤ s'.frameAvg.val ↔ ¬ s.Overtakes c sample now reply := by
  have hd := c.compensate_duration_pos hlasts
  have hf : 0 ≤ (s.prepared c sample now reply).frameAvg.val := hs.prepared hd
  rw [Overtakes, ← draws_prepared_iff s c now reply hlasts, ← catchesUp_prepared_iff s c now reply hlasts]
  cases hr with
  | leftOut draws =>
    refine iff_of_true hf ?_
    rintro ⟨hdraws, -⟩
    exact absurd (draws.symm.trans hdraws) (by decide)
  | caughtUp draws catchesUp =>
    have hperiod : c.average.period.val = max 1 c.averagePeriod.val := Word.val_max 1 c.averagePeriod
    rw [frameAvg_caughtUp hstale hf, prepared_lastDraw, hperiod, val_prepared_frameAvg s c now reply hlasts]
    simp only [draws, catchesUp, true_and]
  | ahead draws catchesUp early =>
    refine iff_of_true (Int.le_of_lt hd) ?_
    rintro ⟨-, hcatchesUp, -⟩
    exact absurd (catchesUp.symm.trans hcatchesUp) (by decide)
  | due draws catchesUp late =>
    refine iff_of_true (Int.le_of_lt hd) ?_
    rintro ⟨-, hcatchesUp, -⟩
    exact absurd (catchesUp.symm.trans hcatchesUp) (by decide)

theorem settled_rendered {path : RenderPath} (h : s.Settled) : (s.rendered c path).Settled := by
  cases path <;> exact h

end State

/-! ### Runs -/

namespace Scheduler

theorem known_of_turns {c : Config} (hstale : 0 ≤ c.staleInterval.val) {s : Scheduler} (hc : s.config = c)
    (hs : s.state.Settled) (calls : List Call) (hd : ∀ t ∈ s.turns calls, t.sample.start < t.sample.stop) :
    (∀ t ∈ s.turns calls, 0 ≤ t.after.state.frameAvg.val ∧
        (t.before.state.renderAvg = 0 → t.ruling.decision ≠ .drop)) ↔
      ∀ t ∈ s.turns calls, ¬ t.before.state.Overtakes c t.sample t.now t.reply := by
  induction calls generalizing s with
  | nil => simp [turns]
  | cons call calls ih =>
    cases call with
    | recordRender path =>
      rw [turns_recordRender] at hd ⊢
      exact ih hc (State.settled_rendered hs) hd
    | notify proportion =>
      rw [turns_notify] at hd ⊢
      exact ih hc hs hd
    | reset =>
      rw [turns_reset] at hd ⊢
      exact ih hc (.inl (Int.le_refl 0)) hd
    | decide sample now reply =>
      cases hdecide : s.decide sample now reply with
      | error e => simp [turns, hdecide]
      | ok p =>
        obtain ⟨ruling, s'⟩ := p
        obtain ⟨hr, -, hc', -⟩ := decide_eq_ok hdecide
        rw [hc] at hr
        simp only [turns, hdecide, List.forall_mem_cons] at hd ⊢
        have hduration := c.compensate_duration_pos hd.1
        have hknown := State.frameAvg_ruled hstale hs hd.1 hr
        constructor
        · rintro ⟨⟨hf, -⟩, hrest⟩
          exact ⟨hknown.1 hf, (ih (hc'.trans hc) (.inr hf) hd.2).1 hrest⟩
        · rintro ⟨hbehind, hrest⟩
          have hf := hknown.2 hbehind
          refine ⟨⟨hf, fun hfree => ?_⟩, (ih (hc'.trans hc) (.inr hf) hd.2).2 hrest⟩
          exact hr.ne_drop_of_free (by rw [hfree, Word.val_zero]) (hs.prepared hduration)

/-- **Known interval**: in a run of frames that end after they start, the interval between frames stays known
after the first of them, and none is left out on account of painting that costs nothing, exactly if no frame
overtakes the one before it. -/
theorem interval_known_iff {c : Config} (hstale : 0 ≤ c.staleInterval.val) (calls : List Call)
    (hd : ∀ t ∈ (ofConfig c).turns calls, t.sample.start < t.sample.stop) :
    (∀ t ∈ (ofConfig c).turns calls, 0 ≤ t.after.state.frameAvg.val ∧
        (t.before.state.renderAvg = 0 → t.ruling.decision ≠ .drop)) ↔
      ∀ t ∈ (ofConfig c).turns calls, ¬ t.before.state.Overtakes c t.sample t.now t.reply :=
  known_of_turns hstale rfl (.inl (Int.le_refl 0)) calls hd

/-- A stream with a frame that waits and one that catches up after a drop at the supplier, on time. -/
theorem interval_known_iff_catch_up :
    let calls : List Call := [.decide ⟨.ofMillis 100, .ofMillis 133, false⟩ (.ofMillis 60) .accepted,
      .recordRender (.blitted 0 90000), .decide ⟨.ofMillis 133, .ofMillis 166, true⟩ (.ofMillis 120) .accepted,
      .reset, .decide ⟨.ofMillis 166, .ofMillis 199, false⟩ (.ofMillis 190) (.failed .rejected)]
    0 ≤ Config.standard.staleInterval.val ∧
      (∀ t ∈ (ofConfig .standard).turns calls, t.sample.start < t.sample.stop) ∧
      ((∀ t ∈ (ofConfig .standard).turns calls, 0 ≤ t.after.state.frameAvg.val ∧
          (t.before.state.renderAvg = 0 → t.ruling.decision ≠ .drop)) ↔
        ∀ t ∈ (ofConfig .standard).turns calls, ¬ t.before.state.Overtakes .standard t.sample t.now t.reply) :=
  ⟨by decide, by decide, interval_known_iff (by decide) _ (by decide)⟩

/-- With the standard configuration and a clock that does not run backward, the interval is lost: the first frame
waits for 10 s, the second one follows a drop at the supplier and is drawn at once, and the third one, 50 ms
late, is left out although nothing was ever painted. Of the three only the second one overtakes. -/
theorem interval_lost_standard :
    let calls : List Call := [.decide ⟨.ofMillis 10008, .ofMillis 10041, false⟩ (.ofMillis 0) (.failed .disconnected),
      .decide ⟨.ofMillis 41, .ofMillis 74, true⟩ (.ofMillis 33) .accepted,
      .decide ⟨.ofMillis 74, .ofMillis 107, false⟩ (.ofMillis 116) (.failed .disconnected)]
    let turns := (ofConfig .standard).turns calls
    (∀ t ∈ turns, t.sample.start < t.sample.stop) ∧ turns.Pairwise (fun t t' => t.now ≤ t'.now) ∧
      turns.map (fun t => (t.ruling.decision, t.before.state.renderAvg.val, t.after.state.frameAvg.val)) =
        [(.drawAt (.ofMillis 10000), 0, 330000), (.drawNow, 0, -9670000), (.drop, 0, -9670000)] ∧
      turns.map (fun t => Decidable.decide (t.before.state.Overtakes .standard t.sample t.now t.reply)) =
        [false, true, false] :=
  ⟨by decide, by decide, rfl, by decide⟩

end Scheduler

end FramePacing
