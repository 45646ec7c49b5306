import OpcUa.Proofs.Reader.Composition

/-!
How the readers of values read one another. The readers of variants, data values, extension objects
and diagnostic records are the only ones that hold further values: each of them is one step that
calls on all four for what it holds, behind an octet of its own.
-/

namespace OpcUa.Reader

/-- What holds further values. A diagnostic record is that many below the first. -/
inductive Compound where
  | variant
  | dataValue
  | extensionObject
  | diagnosticInfo (depth : Nat)
deriving DecidableEq

def Compound.Result : Compound → Type
  | .variant => Variant
  | .dataValue => DataValue
  | .extensionObject => ExtensionObject
  | .diagnosticInfo _ => DiagnosticRecord × List DiagnosticRecord

def Readers : Type := (compound : Compound) → Reader compound.Result

/-- One value, given the readers of whatever holds further values. -/
def contentOf (readers : Readers) : BuiltInType → Reader Value
  | .atom .diagnosticInfo => do
      let chain : DiagnosticRecord × List DiagnosticRecord ← readers (.diagnosticInfo 0)
      return .atom (.diagnosticInfo ⟨chain.1, chain.2⟩)
  | .atom type => do return .atom (← atom type)
  | .extensionObject => do return .extensionObject (← readers .extensionObject)
  | .dataValue => do return .dataValue (← readers .dataValue)
  | .variant => do return .variant (← readers .variant)

/-- A data value, given the reader of the variant in it. -/
def dataValueAround (variant : Reader Variant) : Reader DataValue := nested do
  let mask ← octet
  let held ← optional (hasBit mask 0x01) .null variant
  let status ← optional (hasBit mask 0x02) .good statusCode
  let source ← optional (hasBit mask 0x04) .least dateTime
  let sourcePico ← optional (hasBit mask 0x10) 0 uint16
  let server ← optional (hasBit mask 0x08) .least dateTime
  let serverPico ← optional (hasBit mask 0x20) 0 uint16
  return .mk held status source sourcePico server serverPico

theorem data_value_with_eq (read : BuiltInType → Reader Value) :
    dataValueWith read = dataValueAround (variantWith read) := rfl

/-- Diagnostic records from a depth on, given the reader of those after the first. -/
def diagnosticChainBefore (depth : Nat)
    (further : Reader (DiagnosticRecord × List DiagnosticRecord)) :
    Reader (DiagnosticRecord × List DiagnosticRecord) := do
  let (record, more) ← diagnosticRecord depth
  if more then
    let (inner, rest) ← further
    return (record, inner :: rest)
  else return (record, [])

theorem diagnostic_chain_succ (levels depth : Nat) :
    diagnosticChain (levels + 1) depth =
      diagnosticChainBefore depth (diagnosticChain levels (depth + 1)) := rfl

/-- The readers, each given all of them for what it holds. -/
def step (readers : Readers) : Readers
  | .variant => variantWith (contentOf readers)
  | .dataValue => dataValueAround (readers .variant)
  | .extensionObject => extensionObjectWith (contentOf readers)
  | .diagnosticInfo depth => diagnosticChainBefore depth (readers (.diagnosticInfo (depth + 1)))

/-- The readers of values as they are. -/
def compounds : Readers
  | .variant => variantWith value
  | .dataValue => dataValueWith value
  | .extensionObject => extensionObjectWith value
  | .diagnosticInfo depth => diagnosticChainFrom depth

/-- Every value is read with the readers as they are. -/
theorem content_of_compounds (type : BuiltInType) : contentOf compounds type = value type := by
  rw [value_eq]
  cases type with
  | atom type =>
      cases type with
      | diagnosticInfo =>
          have unfolded : valueWith value (.atom .diagnosticInfo) =
              (diagnosticInfo >>= fun info => pure (.diagnosticInfo info)) >>=
                fun atom => pure (.atom atom) := rfl
          rw [unfolded, diagnostic_info_eq, then_assoc, then_assoc]
          rfl
      | _ => rfl
  | extensionObject => rfl
  | dataValue => rfl
  | variant => rfl

theorem content_of_compounds_eq : contentOf compounds = value := funext content_of_compounds

/-- No record is read below the deepest that the limits allow. -/
theorem diagnostic_record_too_deep {context : MessageContext} {depth : Nat}
    (deep : context.limits.diagnostic < depth) (state : State) :
    diagnosticRecord depth context state =
      .failed (.limit (.diagnosticDepth depth context.limits.diagnostic)) state := by
  have refused : ¬depth ≤ context.limits.diagnostic := Nat.not_le.mpr deep
  rw [diagnosticRecord, bind_apply, check, Limits.checkDiagnosticDepth, if_neg refused]

/-- The readers as they are read with one another, and with nothing else. -/
theorem compounds_eq (compound : Compound) : compounds compound = step compounds compound := by
  cases compound with
  | variant => rw [step, content_of_compounds_eq, compounds]
  | dataValue => exact data_value_with_eq value
  | extensionObject => rw [step, content_of_compounds_eq, compounds]
  | diagnosticInfo depth =>
      funext context state
      rcases Nat.lt_or_ge context.limits.diagnostic depth with deep | allowed
      · have spent : context.limits.diagnostic + 1 - depth = 0 := by omega
        simp only [compounds, step, diagnosticChainFrom, spent, diagnosticChain,
          diagnosticChainBefore, bind_apply, diagnostic_record_too_deep deep]
        rfl
      · have levels : context.limits.diagnostic + 1 - depth =
            context.limits.diagnostic + 1 - (depth + 1) + 1 := by omega
        simp only [compounds, step, diagnosticChainFrom, levels, diagnostic_chain_succ,
          diagnosticChainBefore, bind_apply]
        cases diagnosticRecord depth context state with
        | failed error left => rfl
        | done result left =>
            obtain ⟨record, more⟩ := result
            cases more <;> rfl

theorem composed_compound (compound : Compound) : Composed (compounds compound) := by
  cases compound with
  | variant =>
      have related : composition.Relates 1 (variantWith value) (variantWith value) :=
        composition.variant_with composed_value
      exact related
  | dataValue =>
      have related : composition.Relates 1 (dataValueWith value) (dataValueWith value) :=
        composition.data_value_with composed_value
      exact related
  | extensionObject =>
      have related : composition.Relates 1 (extensionObjectWith value)
          (extensionObjectWith value) := composition.extension_object_with composed_value
      exact related
  | diagnosticInfo depth =>
      have chains : ∀ levels, flatComposition.Relates 0 (diagnosticChain levels depth)
          (diagnosticChain levels depth) :=
        fun levels => flatComposition.diagnostic_chain levels depth
      exact .diagnostic_chain depth chains

section

variable {allowed : Fault → Prop} (law : Congruence allowed) {level : Nat}
  {readers readers' : Readers}
  (related : ∀ compound, law.Relates level (readers compound) (readers' compound))

include related

theorem Congruence.content (type : BuiltInType) :
    law.Relates level (contentOf readers type) (contentOf readers' type) := by
  cases type with
  | atom type =>
      cases type with
      | diagnosticInfo => exact law.map _ (related (.diagnosticInfo 0))
      | _ => exact law.map _ (law.atom _)
  | extensionObject => exact law.map _ (related .extensionObject)
  | dataValue => exact law.map _ (related .dataValue)
  | variant => exact law.map _ (related .variant)

/-- Behind its first octet a reader does nothing but what the readers that it is given do. -/
theorem Congruence.step (inside : law.Inside level (contentOf readers) (contentOf readers'))
    (compound : Compound) :
    law.Relates (level + 1) (Reader.step readers compound) (Reader.step readers' compound) := by
  cases compound with
  | variant => exact law.variant_with inside
  | dataValue =>
      apply law.nested
      apply law.after_octet
      intro mask
      exact law.bind (law.optional _ _ (related .variant)) fun _ =>
        law.bind (law.optional _ _ law.status_code) fun _ =>
        law.bind (law.optional _ _ law.date_time) fun _ =>
        law.bind (law.optional _ _ law.uint16) fun _ =>
        law.bind (law.optional _ _ law.date_time) fun _ => law.map _ (law.optional _ _ law.uint16)
  | extensionObject => exact law.extension_object_with inside
  | diagnosticInfo depth =>
      simp only [Reader.step, diagnosticChainBefore, diagnosticRecord, then_assoc]
      apply law.bind (law.check_depth depth)
      intro _
      apply law.after_octet
      intro mask
      refine law.bind (law.optional _ _ law.int32) fun _ => law.bind (law.optional _ _ law.int32)
        fun _ => law.bind (law.optional _ _ law.int32) fun _ =>
        law.bind (law.optional _ _ law.int32) fun _ => law.bind (law.optional _ _ law.text) fun _ =>
        law.bind (law.optional _ _ law.status_code) fun _ => law.bind (law.pure _) fun record => ?_
      split
      · exact law.map _ (related (.diagnosticInfo (depth + 1)))
      · exact law.pure _

end

end OpcUa.Reader
