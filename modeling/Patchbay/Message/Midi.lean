import Patchbay.Name

/-!
# MIDI events

Seven shapes of event, their fields carried as plain integers and never checked
against the ranges of the wire. A channel above fifteen names a port in its high
bits.
-/

namespace Patchbay

/-- One MIDI event. -/
inductive MidiEvent where
  | noteOn (channel pitch velocity : Int32)
  | controlChange (channel controller value : Int32)
  | programChange (channel value : Int32)
  | pitchBend (channel value : Int32)
  | afterTouch (channel value : Int32)
  | polyAfterTouch (channel pitch value : Int32)
  | byte (port value : Int32)
  deriving DecidableEq, Repr, Inhabited

/-- The families of MIDI events. -/
inductive MidiKind where
  | note
  | control
  | program
  | bend
  | touch
  | polyTouch
  | byte
  deriving DecidableEq, Repr

/-- The name of a family of events. -/
def MidiKind.name : MidiKind → String
  | .note => "noteon"
  | .control => "controlchange"
  | .program => "programchange"
  | .bend => "pitchbend"
  | .touch => "aftertouch"
  | .polyTouch => "polyaftertouch"
  | .byte => "byte"

namespace MidiEvent

/-- The family of an event. -/
def kind : MidiEvent → MidiKind
  | noteOn .. => .note
  | controlChange .. => .control
  | programChange .. => .program
  | pitchBend .. => .bend
  | afterTouch .. => .touch
  | polyAfterTouch .. => .polyTouch
  | byte .. => .byte

/-- The channel field with its port bits; raw bytes have none. -/
def rawChannel : MidiEvent → Option Int32
  | noteOn channel _ _ | controlChange channel _ _ | programChange channel _
  | pitchBend channel _ | afterTouch channel _ | polyAfterTouch channel _ _ => some channel
  | byte _ _ => none

/-- The port an event travels on. -/
def port : MidiEvent → Int32
  | byte port _ => port
  | event => event.rawChannel.getD 0 >>> 4

/-- The channel within the port, zero for raw bytes. -/
def channel (event : MidiEvent) : Int32 := event.rawChannel.getD 0 &&& 15

/-- The fields of an event, channel or port first. -/
def fields : MidiEvent → List Int32
  | noteOn channel pitch velocity => [channel, pitch, velocity]
  | controlChange channel controller value => [channel, controller, value]
  | programChange channel value => [channel, value]
  | pitchBend channel value => [channel, value]
  | afterTouch channel value => [channel, value]
  | polyAfterTouch channel pitch value => [channel, pitch, value]
  | byte port value => [port, value]

/-- The text of an event. -/
def text : MidiEvent → String
  | noteOn channel pitch velocity => s!"noteon ch={channel} pitch={pitch} vel={velocity}"
  | controlChange channel controller value => s!"cc ch={channel} ctl={controller} val={value}"
  | programChange channel value => s!"pgm ch={channel} val={value}"
  | pitchBend channel value => s!"bend ch={channel} val={value}"
  | afterTouch channel value => s!"touch ch={channel} val={value}"
  | polyAfterTouch channel pitch value => s!"polytouch ch={channel} pitch={pitch} val={value}"
  | byte port value => s!"byte port={port} val={value}"

end MidiEvent

end Patchbay
