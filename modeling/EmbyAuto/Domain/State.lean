import EmbyAuto.Store.Schema

/-!
# The transition tables of the domain

`domain/state.go`: which changes of a task's state and of the states of its branches the domain
allows without further context.
-/

namespace EmbyAuto

/-- The states that `ValidateTaskTransition` allows after a state. -/
def TaskState.next : TaskState → List TaskState
  | mediaQueued => [processing, failed, cancelled]
  | processing => [finalizing, failed, cancelled]
  | finalizing => [awaitingReview, failed, cancelled]
  | awaitingReview => [approved, rejected, failed, cancelled]
  | approved => [importQueued, failed, cancelled]
  | importQueued => [importing, failed, cancelled]
  | importing => [imported, failed, cancelled]
  | failed => [processing, importQueued, cancelled]
  | rejected | imported | cancelled => []

/-- `ValidateTaskTransition`, without the text of its error. -/
def validateTaskTransition (source target : TaskState) : Bool := target ∈ source.next

/-- The states that `ValidateVideoTransition` allows after a state. -/
def VideoState.next : VideoState → List VideoState
  | transcodeQueued => [transcoding, failed, cancelled]
  | transcoding => [videoReady, failed, cancelled]
  | failed => [transcodeQueued]
  | videoReady | cancelled => []

/-- `ValidateVideoTransition`, without the text of its error. -/
def validateVideoTransition (source target : VideoState) : Bool := target ∈ source.next

/-- The states that `ValidateSubtitleTransition` allows after a state. -/
def SubtitleState.next : SubtitleState → List SubtitleState
  | subtitleQueued => [extractingOrConverting, failed, cancelled]
  | extractingOrConverting => [assReady, failed, cancelled]
  | failed => [subtitleQueued]
  | assReady | cancelled => []

/-- `ValidateSubtitleTransition`, without the text of its error. -/
def validateSubtitleTransition (source target : SubtitleState) : Bool := target ∈ source.next

end EmbyAuto
