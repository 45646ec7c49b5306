import OpcUa.Binary.Decode
import OpcUa.Binary.Encode

/-!
Sessions. An encoder keeps what a row of writers have appended, a decoder walks through one input;
both keep the state that the last step left and go on after a failure. An encoder keeps the octets
that a failed step wrote. A step writes or reads one field, or opens or closes a namespace; closing
one that was not opened fails and changes nothing.
-/

namespace OpcUa

structure Encoder where
  buffer : Octets
  state : Writer.State

namespace Encoder

/-- What one step appended, and the cause if it failed. -/
structure Answer where
  octets : Octets
  failure : Option Error

inductive Step where
  | write (field : FieldValue)
  | pushNamespace (uri : Octets)
  | popNamespace

def start (context : MessageContext) : Encoder := ⟨[], ⟨context, 0, []⟩⟩

def run (encoder : Encoder) (writer : Writer) : Answer × Encoder :=
  let output := writer encoder.state
  (⟨output.octets, output.failure⟩, ⟨encoder.buffer ++ output.octets, output.state⟩)

def pushNamespace (encoder : Encoder) (uri : Octets) : Encoder :=
  let namespaces := encoder.state.namespaces.push uri
  { encoder with state := { encoder.state with namespaces := namespaces } }

def popNamespace (encoder : Encoder) : Answer × Encoder :=
  match encoder.state.namespaces.pop with
  | .error error => (⟨[], some error⟩, encoder)
  | .ok namespaces =>
      (⟨[], none⟩, { encoder with state := { encoder.state with namespaces := namespaces } })

def step (encoder : Encoder) : Step → Answer × Encoder
  | .write field => encoder.run (Writer.field field)
  | .pushNamespace uri => (⟨[], none⟩, encoder.pushNamespace uri)
  | .popNamespace => encoder.popNamespace

/-- Steps in sequence, failed ones too. -/
def steps (encoder : Encoder) : List Step → List Answer × Encoder
  | [] => ([], encoder)
  | first :: rest =>
      let (answer, next) := encoder.step first
      let (answers, last) := next.steps rest
      (answer :: answers, last)

/-- The number of octets written. -/
def position (encoder : Encoder) : Nat := encoder.buffer.length

end Encoder

structure Decoder where
  context : MessageContext
  state : Reader.State

namespace Decoder

inductive Step where
  | read (kind : FieldKind)
  | pushNamespace (uri : Octets)
  | popNamespace

def start (context : MessageContext) (input : Octets) : Decoder := ⟨context, ⟨0, input, 0, []⟩⟩

def run {Result : Type} (decoder : Decoder) (reader : Reader Result) :
    Except Error Result × Decoder :=
  match reader decoder.context decoder.state with
  | .done result state => (.ok result, { decoder with state := state })
  | .failed error state => (.error error, { decoder with state := state })

theorem run_ok {Result : Type} {decoder next : Decoder} {reader : Reader Result}
    {result : Result} :
    decoder.run reader = (.ok result, next) ↔
      reader decoder.context decoder.state = .done result next.state ∧
        next.context = decoder.context := by
  unfold run
  cases reader decoder.context decoder.state with
  | failed error state => simp
  | done found state =>
      constructor
      · intro ran
        cases ran
        exact ⟨rfl, rfl⟩
      · rintro ⟨same, kept⟩
        cases same
        rw [← kept]

theorem run_error {Result : Type} {decoder next : Decoder} {reader : Reader Result}
    {error : Error} :
    decoder.run reader = (.error error, next) ↔
      reader decoder.context decoder.state = .failed error next.state ∧
        next.context = decoder.context := by
  unfold run
  cases reader decoder.context decoder.state with
  | done found state => simp
  | failed cause state =>
      constructor
      · intro ran
        cases ran
        exact ⟨rfl, rfl⟩
      · rintro ⟨same, kept⟩
        cases same
        rw [← kept]

def pushNamespace (decoder : Decoder) (uri : Octets) : Decoder :=
  let namespaces := decoder.state.namespaces.push uri
  { decoder with state := { decoder.state with namespaces := namespaces } }

def popNamespace (decoder : Decoder) : Except Error Unit × Decoder :=
  match decoder.state.namespaces.pop with
  | .error error => (.error error, decoder)
  | .ok namespaces =>
      (.ok (), { decoder with state := { decoder.state with namespaces := namespaces } })

/-- Only a step that reads answers with a field. -/
def step (decoder : Decoder) : Step → Except Error (Option FieldValue) × Decoder
  | .read kind =>
      let (result, next) := decoder.run (Reader.field kind)
      (result.map some, next)
  | .pushNamespace uri => (.ok none, decoder.pushNamespace uri)
  | .popNamespace =>
      let (result, next) := decoder.popNamespace
      (result.map fun _ => none, next)

/-- Steps in sequence, failed ones too. -/
def steps (decoder : Decoder) :
    List Step → List (Except Error (Option FieldValue)) × Decoder
  | [] => ([], decoder)
  | first :: rest =>
      let (answer, next) := decoder.step first
      let (answers, last) := next.steps rest
      (answer :: answers, last)

/-- The number of octets read. -/
def position (decoder : Decoder) : Nat := decoder.state.position

/-- The number of octets left up to the end of the data. -/
def remaining (decoder : Decoder) : Nat := decoder.state.input.length

end Decoder

end OpcUa
