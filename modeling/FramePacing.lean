import FramePacing.Playback.Simulator
import FramePacing.Playback.Tracker
import FramePacing.Printout
import FramePacing.Renderer
import FramePacing.Timeline
import FramePacing.Proofs.Scheduler.Bounds
import FramePacing.Proofs.Scheduler.Totality
import FramePacing.Proofs.Scheduler.Figures
import FramePacing.Proofs.Recording.RoundTrip
import FramePacing.Proofs.Recording.Framing
import FramePacing.Proofs.Recording.Truncation
import FramePacing.Proofs.Scheduler.Presentation
import FramePacing.Proofs.Scheduler.Interval
import FramePacing.Proofs.Scheduler.Freshness
import FramePacing.Proofs.Scheduler.CatchUp
import FramePacing.Proofs.Scheduler.Reasons
import FramePacing.Proofs.Scheduler.Drops
import FramePacing.Proofs.Scheduler.Steady
import FramePacing.Proofs.Scheduler.Resumption
import FramePacing.Proofs.Scheduler.SteadyFigures
import FramePacing.Proofs.Scheduler.Shift
import FramePacing.Proofs.Playback.Session
import FramePacing.Proofs.Playback.Delivery
import FramePacing.Proofs.Playback.Agreement
import FramePacing.Proofs.Scheduler.Regular
import FramePacing.Proofs.Playback.EarlyDelivery
import FramePacing.Proofs.Routing
import FramePacing.Proofs.Scheduler.Paints
import FramePacing.Proofs.Scheduler.SteadyPaints
import FramePacing.Proofs.Scheduler.Counts
import FramePacing.Proofs.Renderer.Session
import FramePacing.Proofs.Renderer.Refinement
import FramePacing.Proofs.Renderer.Trace
import FramePacing.Proofs.Renderer.Reset
import FramePacing.Proofs.Clock
import FramePacing.Proofs.Steering
import FramePacing.Proofs.Recording.NormalForm
import FramePacing.Proofs.Recording.Scan
import FramePacing.Proofs.Scheduler.Acknowledgements
import FramePacing.Proofs.Scheduler.Draining
import FramePacing.Proofs.Windows
import FramePacing.Proofs.Deviation
import FramePacing.Proofs.Renderer.Outcomes
import FramePacing.Proofs.Playback.Resync
import FramePacing.Proofs.Playback.Smoothness
import FramePacing.Proofs.Printout
import FramePacing.Proofs.Timeline
import FramePacing.Proofs.Duration
