import ChipEight.Observer

namespace ChipEight.Host

def forwarder : Observer where
  react _ event :=
    match event with
    | .start _ => { records := [.remark .info "ROM running"] }
    | .sound state =>
      { records := [.remark .debug s!"beep [sound timer: {state.soundTimer.toNat}]"] }
    | .fault cause => { records := [.remark .warn s!"emulation halted: {cause.message}"] }
    | .update _ | .frame _ | .stop _ => {}

theorem calm_forwarder : forwarder.Calm := by
  intro heard event
  cases event <;> rfl

/-- The far end of the way that frames take. Once it is closed they are dropped. -/
structure Channel where
  frames : List Frame := []
  isOpen : Bool := true

namespace Channel

def send (channel : Channel) (frame : Frame) : Except Frame Channel :=
  if channel.isOpen then .ok { channel with frames := channel.frames ++ [frame] }
  else .error frame

def close (channel : Channel) : Channel := { channel with isOpen := false }

/-- The forwarder is told of an event with its channel at hand. A frame that comes back is
dropped without a word. -/
def hear (channel : Channel) (event : Event) : Channel × Reaction :=
  match event with
  | .frame state =>
    match channel.send state.frame with
    | .ok sent => (sent, {})
    | .error _ => (channel, {})
  | .start _ | .update _ | .sound _ | .fault _ | .stop _ =>
    (channel, forwarder.reaction event)

def after (channel : Channel) (heard : List Event) : Channel :=
  heard.foldl (fun channel event => (channel.hear event).1) channel

end Channel
end ChipEight.Host
