import Sar.Core.Error

/-!
# Content-defined chunking: the registry

Which chunking algorithms an entry may name.
-/

namespace Sar

/-- `CDC_ALGO_LITERAL`. -/
def cdcAlgoLiteral : UInt8 := 0x00

/-- `CDC_ALGO_FASTCDC`. -/
def cdcAlgoFastcdc : UInt8 := 0x02

/-- `CDC_ALGO_CUSTOM_MIN`. -/
def cdcAlgoCustomMin : UInt8 := 0xF0

/-- `validate_cdc_algo_id`, with its error mapped into `SarError`. -/
def validateCdcAlgoId (id : UInt8) : Result Unit :=
  if id = cdcAlgoLiteral ∨ id = cdcAlgoFastcdc then .ok ()
  else if id = 0x01 ∨ id = 0x03 then
    .error (.unsupported "CDC algorithm not implemented (RABIN/BUZHASH)")
  else if cdcAlgoCustomMin ≤ id then .error (.unsupported "CUSTOM CDC algorithm not supported")
  else .error (.reservedValue "reserved CDC algorithm ID")

end Sar
