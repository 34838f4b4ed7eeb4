import FramePacing.Proofs.Scheduler.Verdict
import FramePacing.Proofs.Statistics

/-!
# Runs do not fault

No configuration, sample, time, paint or acknowledgement makes a call fault: all that can is the count of
a ring, and it has room for 2⁶⁴ - 1 values. `Statistics.Room` says how many decisions there is still room
for; a call takes up one of them at most.
-/

namespace FramePacing

namespace Statistics

/-- There is room for `k` more decisions. -/
def Room (s : Statistics) (k : Nat) : Prop :=
  ∃ h : History, s.Holds h ∧ h.arrivals.length + k < 2 ^ 64 ∧ h.shown.length + k < 2 ^ 64

variable {s s' : Statistics} {k : Nat}

theorem room_empty (hk : k < 2 ^ 64) : empty.Room k :=
  ⟨.empty, holds_empty, by rwa [History.empty, List.length_nil, Nat.zero_add],
    by rwa [History.empty, List.length_nil, Nat.zero_add]⟩

theorem Room.mono {k' : Nat} (hs : s.Room k) (hk : k' ≤ k) : s.Room k' := by
  obtain ⟨h, hh, ha, hd⟩ := hs
  exact ⟨h, hh, by omega, by omega⟩

theorem Room.summary (hs : s.Room k) : ∃ f, s.summary = .ok f := by
  obtain ⟨h, hh, -, -⟩ := hs
  exact hh.summary_ok

/-- An arrival and then a drop or a frame: what one decision records. -/
theorem Room.recordArrival (hs : s.Room (k + 1)) (now : StreamTime) :
    ∃ arrived, s.recordArrival now = .ok arrived ∧ arrived.recordDrop.Room k ∧
      ∀ time offset frameTime, ∃ s', arrived.recordDraw time offset frameTime = .ok s' ∧ s'.Room k := by
  obtain ⟨h, hh, ha, hd⟩ := hs
  obtain ⟨arrived, harrived⟩ := hh.recordArrival_ok now (by omega)
  have hh' := hh.recordArrival harrived
  have hlen : (h.arrive now).arrivals.length + k < 2 ^ 64 := by
    rw [History.arrive, List.length_append, List.length_singleton]
    omega
  refine ⟨arrived, harrived, ⟨_, hh'.recordDrop, hlen, ?_⟩, ?_⟩
  · change h.shown.length + k < 2 ^ 64
    omega
  · intro time offset frameTime
    obtain ⟨s', hs'⟩ := hh'.recordDraw_ok time offset frameTime (show h.shown.length + 1 < _ by omega)
    refine ⟨s', hs', _, hh'.recordDraw hs', hlen, ?_⟩
    rw [History.add, List.length_append, List.length_singleton]
    change h.shown.length + 1 + k < 2 ^ 64
    omega

end Statistics

namespace Scheduler

variable {s : Scheduler} {k : Nat}

theorem decide_ok (hs : s.statistics.Room (k + 1)) (sample : Sample) (now : StreamTime) (reply : Reply) :
    ∃ ruling s', s.decide sample now reply = .ok (ruling, s') ∧ s'.statistics.Room k := by
  obtain ⟨arrived, harrived, hdrop, hdraw⟩ := hs.recordArrival now
  rw [decide_eq, harrived, Fault.ok_bind]
  dsimp only
  split
  · generalize State.drawn _ _ _ _ = draw
    obtain ⟨statistics, hrecord, hroom⟩ := hdraw draw.presented (draw.presented - sample.start) draw.frameTime
    rw [hrecord, Fault.ok_bind]
    exact ⟨_, _, rfl, hroom⟩
  · exact ⟨_, _, rfl, hdrop⟩

theorem step_ok (hs : s.statistics.Room (k + 1)) (call : Call) :
    ∃ answer s', s.step call = .ok (answer, s') ∧ s'.statistics.Room k := by
  cases call with
  | decide sample now reply =>
    obtain ⟨ruling, s', h, hroom⟩ := decide_ok hs sample now reply
    rw [step, h]
    exact ⟨_, _, rfl, hroom⟩
  | recordRender path =>
    exact ⟨_, _, s.step_recordRender path, hs.mono (Nat.le_succ k)⟩
  | notify proportion =>
    exact ⟨_, _, s.step_notify proportion, hs.mono (Nat.le_succ k)⟩
  | reset =>
    obtain ⟨h, -, ha, -⟩ := hs
    exact ⟨_, _, rfl, Statistics.room_empty (by omega)⟩

theorem run_cons {call : Call} {calls : List Call} {answer : Answer} {answers : List Answer} {s₁ s₂ : Scheduler}
    (hs : s.step call = .ok (answer, s₁)) (hr : s₁.run calls = .ok (answers, s₂)) :
    s.run (call :: calls) = .ok (answer :: answers, s₂) := by
  rw [run, hs, Fault.ok_bind]
  dsimp only
  rw [hr]
  rfl

theorem run_snoc {s₁ s₂ : Scheduler} {calls : List Call} {call : Call} {answers : List Answer} {answer : Answer}
    (hr : s.run calls = .ok (answers, s₁)) (hs : s₁.step call = .ok (answer, s₂)) :
    s.run (calls ++ [call]) = .ok (answers ++ [answer], s₂) := by
  rw [run_append, hr, Fault.ok_bind]
  dsimp only
  rw [run_cons hs rfl]
  rfl

theorem run_ok (calls : List Call) (hs : s.statistics.Room (k + calls.length)) :
    ∃ answers s', s.run calls = .ok (answers, s') ∧ s'.statistics.Room k := by
  induction calls generalizing s with
  | nil => exact ⟨[], s, rfl, hs⟩
  | cons call calls ih =>
    obtain ⟨answer, s₁, hstep, hroom⟩ := step_ok (k := k + calls.length) hs call
    obtain ⟨answers, s₂, hrun, hroom⟩ := ih hroom
    exact ⟨answer :: answers, s₂, run_cons hstep hrun, hroom⟩

/-- **Totality**: fewer than 2⁶⁴ calls never fault, and after them all figures can be read. -/
theorem run_total (c : Config) {calls : List Call} (h : calls.length < 2 ^ 64) :
    ∃ answers s figures, (ofConfig c).run calls = .ok (answers, s) ∧ s.statistics.summary = .ok figures := by
  have hempty : (ofConfig c).statistics.Room (0 + calls.length) := Statistics.room_empty (by omega)
  obtain ⟨answers, s, hrun, hroom⟩ := run_ok calls hempty
  obtain ⟨figures, hsummary⟩ := hroom.summary
  exact ⟨answers, s, figures, hrun, hsummary⟩

/-- A configuration of extremes, and samples at both ends of the axis. -/
theorem run_total_extremes :
    let c : Config := ⟨.greatest, .least, .least, .greatest, .least, .least, .greatest, .least⟩
    let calls : List Call := [.decide ⟨⟨.least⟩, ⟨.greatest⟩, true⟩ ⟨.greatest⟩ .accepted,
      .recordRender (.blitted .least .greatest), .decide ⟨⟨.greatest⟩, ⟨.least⟩, true⟩ ⟨.least⟩ .accepted,
      .notify .greatest, .decide ⟨⟨.greatest⟩, ⟨.least⟩, false⟩ ⟨.greatest⟩ (.failed .rejected)]
    calls.length < 2 ^ 64 ∧
      ∃ answers s figures, (ofConfig c).run calls = .ok (answers, s) ∧ s.statistics.summary = .ok figures :=
  ⟨by decide, run_total _ (by decide)⟩

end Scheduler

end FramePacing
