import NestedHover.Proofs.Canvas.Convergence
import NestedHover.Proofs.Canvas.Departure
import NestedHover.Proofs.Canvas.Excursion
import NestedHover.Spotlight.Operation
import NestedHover.Statement.Click
import NestedHover.Proofs.Spotlight.Exclusivity
import NestedHover.Proofs.Spotlight.Ticking
import NestedHover.Proofs.Spotlight.Delay
import NestedHover.Proofs.Spotlight.Cancellation
import NestedHover.Proofs.Pointer.Answers
import NestedHover.Proofs.Canvas.References
import NestedHover.Proofs.Region.WellFormed
import NestedHover.Proofs.Spotlight.Forgetting
import NestedHover.Proofs.Region.Freshness
import NestedHover.Proofs.Region.Subtrees
import NestedHover.Proofs.Canvas.Unmounting
import NestedHover.Proofs.Region.Topmost
import NestedHover.Proofs.Region.Enclosure
import NestedHover.Proofs.Pointer.Bubbling
import NestedHover.Proofs.Spotlight.Activation
import NestedHover.Proofs.Spotlight.Resetting
import NestedHover.Proofs.Statement.Clicks
import NestedHover.Proofs.Region.Wear
import NestedHover.Proofs.Canvas.Retention
import NestedHover.Proofs.Canvas.Mounting
import NestedHover.Proofs.Alarm.Payloads
import NestedHover.Proofs.Pointer.Stream
import NestedHover.Proofs.Spotlight.Environment
import NestedHover.Proofs.Canvas.Layouts
import NestedHover.Proofs.Canvas.Scenes
import NestedHover.Proofs.Region.Arrangement
import NestedHover.Region.SecondaryMap
