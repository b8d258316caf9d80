import TypedHeaders.Codec.Encoding

/-! # Sinks

A sink takes pieces of data until it fails, and from then on takes none. What it took is kept in
order. A fault of the system while a header is written is reported under the name of that header,
and every other fault passes through.
-/

namespace TypedHeaders

/-- A sink that takes so many pieces and then reports a fault, or that never fails. -/
structure Sink where
  capacity : Option Nat
  fault : Fault
  /-- The pieces that were taken, first one first. -/
  written : List Octets

namespace Sink

def unlimited : Sink := ⟨none, .raised Fault.systemClass [], []⟩

def accepts (sink : Sink) : Bool := sink.capacity.all fun limit => sink.written.length < limit

/-- The sink after one more piece, if it takes it. -/
def write (data : Octets) (sink : Sink) : Except Fault Sink :=
  if sink.accepts then .ok { sink with written := sink.written ++ [data] } else .error sink.fault

def contents (sink : Sink) : Octets := sink.written.flatten

end Sink

namespace Fault

/-- The error that a fault becomes while the header of this name is written. -/
def whileWriting (header : String) (fault : Fault) : Error :=
  if fault.isSystem then .notWritten header fault else .fault fault

end Fault

namespace Codec

/-- Writing a value to a sink. Nothing is written of a value that the codec refuses. -/
def write (codec : Codec) (value : Value) (sink : Sink) : Except Error Unit × Sink :=
  match codec.encode value with
  | .error refusal => (.error refusal, sink)
  | .ok data =>
    match sink.write data with
    | .ok sink => (.ok (), sink)
    | .error fault => (.error (fault.whileWriting (codec.header.getD "None")), sink)

/-- The data that writing a value gives to a sink that never fails. -/
def written (codec : Codec) (value : Value) : Except Error Octets :=
  let (outcome, sink) := codec.write value .unlimited
  outcome.map fun _ => sink.contents

end Codec

end TypedHeaders
