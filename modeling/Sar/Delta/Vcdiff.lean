import Sar.Delta.Patch
import Sar.ForMathlib.ByteParser

/-!
# VCDIFF patches

The decoder of RFC 3284 patches as `sar-delta` writes it (default code table, no secondary
compression), and its generator, which emits one window with one `ADD` instruction.
-/

namespace Sar

open ByteParser
open Except (rejectIf)

/-- `VcdiffLimits`. -/
structure VcdiffLimits where
  maxPatchSize : ℕ
  maxWindowCount : ℕ
  maxInstructionCount : ℕ
  maxOutputSize : ℕ

/-- `VcdiffLimits::default`. -/
def VcdiffLimits.default : VcdiffLimits where
  maxPatchSize := 512 * 1024 * 1024
  maxWindowCount := 1000000
  maxInstructionCount := 10000000
  maxOutputSize := 1024 * 1024 * 1024

/-! ### The byte reader -/

/-- Programs on a `ByteReader`. -/
abbrev PatchParser := ByteParser.Parser PatchError

/-- `ByteReader::read_bytes`. -/
def readPatchBytes (n : ℕ) : PatchParser (Octets n) :=
  octets (fun pos =>
    if pos + n > u64Max then .patchFailed "VCDIFF: byte read overflow"
    else .patchFailed "VCDIFF: unexpected end of patch stream while reading section") n

/-- `ByteReader::read_u8`. -/
def readPatchU8 : PatchParser UInt8 := fun c =>
  match c.rest with
  | [] => .error (.patchFailed "VCDIFF: unexpected end of stream")
  | b :: rest => .ok (b, ⟨c.pos + 1, rest⟩)

/-- The loop of `ByteReader::read_varint`, from the value read so far. -/
def readVarintFrom (value pos : ℕ) : Bytes → Except PatchError (ℕ × Cursor)
  | [] => .error (.patchFailed "VCDIFF: truncated varint in patch stream")
  | b :: rest =>
    if value > u64Max / 128 then .error (.patchFailed "VCDIFF: varint overflow")
    else
      let value := value * 128 + (b &&& 0x7F).toNat
      if b &&& 0x80 = 0 then .ok (value, ⟨pos + 1, rest⟩) else readVarintFrom value (pos + 1) rest

/-- `ByteReader::read_varint`: seven bits a byte, most significant first. -/
def readVarint : PatchParser ℕ := fun c => readVarintFrom 0 c.pos c.rest

/-- `ByteReader::is_empty`. -/
def isAtEnd (c : Cursor) : Bool := c.rest.isEmpty

/-! ### The code table -/

/-- `InstType`, with the addressing mode of a copy. -/
inductive InstType where
  | noop
  | add
  | run
  | copy (mode : ℕ)
  deriving DecidableEq

/-- `InstDef`: size zero means that the size follows as a varint. -/
structure InstDef where
  ty : InstType
  size : ℕ
  deriving DecidableEq

/-- `CodeEntry`: up to two instructions. -/
structure CodeEntry where
  inst1 : InstDef
  inst2 : InstDef
  deriving DecidableEq

/-- `InstDef::noop`. -/
def InstDef.noop : InstDef := ⟨.noop, 0⟩

/-- `CodeEntry::single`. -/
def CodeEntry.single (inst : InstDef) : CodeEntry := ⟨inst, .noop⟩

/-- `N_MODES`. -/
def nModes : ℕ := 9

/-- The double entries in iteration order, before the table is full. -/
def doubleEntries : List CodeEntry :=
  [1, 2, 3, 4].flatMap fun addSize => (List.range nModes).flatMap fun mode =>
    [4, 5, 6].map fun copySize => ⟨⟨.add, addSize⟩, ⟨.copy mode, copySize⟩⟩

/-- `build_default_code_table`: the double entries fill what the single ones leave of 256. -/
def defaultCodeTable : List CodeEntry :=
  [CodeEntry.single .noop, CodeEntry.single ⟨.add, 0⟩, CodeEntry.single ⟨.run, 0⟩] ++
    (List.range 16).map (fun i => CodeEntry.single ⟨.add, i + 1⟩) ++
    (List.range nModes).flatMap (fun mode => CodeEntry.single ⟨.copy mode, 0⟩ ::
      (List.range 15).map fun i => CodeEntry.single ⟨.copy mode, i + 4⟩) ++
    doubleEntries.take 93

/-- `code_table[code]`. -/
def codeEntry (code : UInt8) : CodeEntry := defaultCodeTable.getD code.toNat (.single .noop)

/-! ### Addresses -/

/-- `AddrCache`. -/
structure AddrCache where
  near : List ℕ
  nearNext : ℕ
  same : List ℕ

/-- `AddrCache::new`. -/
def AddrCache.new : AddrCache := ⟨List.replicate 4 0, 0, List.replicate 768 0⟩

/-- `AddrCache::decode_address`, on the reader of the address section. -/
def AddrCache.decodeAddress (cache : AddrCache) (mode here : ℕ) : PatchParser ℕ :=
  if mode = 0 then readVarint
  else if mode = 1 then do
    let delta ← readVarint
    check (rejectIf (delta > here) (.patchFailed "VCDIFF: HERE address underflow"))
    pure (here - delta)
  else if mode ≤ 5 then do
    let offset ← readVarint
    let addr := cache.near.getD (mode - 2) 0 + offset
    check (rejectIf (addr > u64Max) (.patchFailed "VCDIFF: NEAR address overflow"))
    pure addr
  else if mode ≤ 8 then do
    let b ← readPatchU8
    pure (cache.same.getD ((mode - 6) * 256 + b.toNat) 0)
  else check (.error (.patchFailed "VCDIFF: invalid COPY addressing mode"))

/-- `AddrCache::update`. -/
def AddrCache.update (cache : AddrCache) (addr : ℕ) : AddrCache where
  near := cache.near.set (cache.nearNext % 4) addr
  nearNext := cache.nearNext + 1
  same := cache.same.set (addr % 768) addr

/-! ### Instructions -/

/-- The state of `apply_instructions`. The target window is written from its start on, so the
bytes before `target_pos` are `written`. -/
structure WindowState where
  data : Cursor
  inst : Cursor
  addr : Cursor
  cache : AddrCache
  written : Bytes

/-- Append `out` to the window; `name` is the instruction in the error texts. -/
def WindowState.emit (st : WindowState) (targetStart targetLen : ℕ) (name : String) (size : ℕ) :
    Except PatchError Unit := do
  rejectIf (targetStart + st.written.length + size > u64Max)
    (.patchFailed ("VCDIFF: " ++ name ++ " output overflow"))
  rejectIf (st.written.length + size > targetLen)
    (.patchFailed ("VCDIFF: " ++ name ++ " instruction writes past target window end"))

/-- One byte of a copy: from the source segment, or from the window as it was before the copy.
Addresses are unbounded here: the sum of `target_start` and the offset does not wrap. -/
def copyByte (source written : Bytes) (srcAddr : ℕ) : Except PatchError UInt8 :=
  if srcAddr < source.length then .ok (source.getD srcAddr 0)
  else if srcAddr - source.length ≥ written.length then
    .error (.patchFailed "VCDIFF: COPY references unwritten target bytes")
  else .ok (written.getD (srcAddr - source.length) 0)

/-- The byte loop of a copy. -/
def copyBytes (source written : Bytes) (addr size : ℕ) : Except PatchError Bytes :=
  (List.range size).mapM fun i => copyByte source written (addr + i)

/-- The size of an instruction: in the table, or a varint of the instruction section. -/
def instSize (idef : InstDef) (inst : Cursor) : Except PatchError (ℕ × Cursor) :=
  if idef.size = 0 then readVarint inst else .ok (idef.size, inst)

/-- One instruction of a code entry. -/
def applyInst (source : Bytes) (targetStart targetLen : ℕ) (idef : InstDef) (st : WindowState) :
    Except PatchError WindowState :=
  if idef.ty = .noop then pure st
  else do
    let (size, inst) ← instSize idef st.inst
    match idef.ty with
    | .noop => pure st
    | .add => do
      let (bytes, data) ← readPatchBytes size st.data
      st.emit targetStart targetLen "ADD" size
      pure { st with data, inst, written := st.written ++ bytes.val }
    | .run => do
      let (b, data) ← readPatchU8 st.data
      st.emit targetStart targetLen "RUN" size
      pure { st with data, inst, written := st.written ++ List.replicate size b }
    | .copy mode => do
      let here := source.length + st.written.length
      let (address, addr) ← st.cache.decodeAddress mode here st.addr
      st.emit targetStart targetLen "COPY" size
      rejectIf (address + size > u64Max) (.patchFailed "VCDIFF: COPY address overflow")
      let bytes ← copyBytes source st.written address size
      pure { st with addr, inst, cache := st.cache.update address, written := st.written ++ bytes }

/-- The loop of `apply_instructions`. Every round reads an instruction byte, so `fuel` is the
length of the instruction section. -/
def applyInstLoop (source : Bytes) (targetStart targetLen maxCount : ℕ) :
    ℕ → ℕ → WindowState → Except PatchError WindowState
  | 0, _, st => pure st
  | fuel + 1, count, st =>
    if isAtEnd st.inst then pure st
    else do
      rejectIf (st.written.length ≥ targetLen)
        (.patchFailed "VCDIFF: instructions remain after target window filled")
      rejectIf (count + 1 > maxCount)
        (.limitExceeded "VCDIFF: instruction count exceeds max_instruction_count limit")
      let (code, inst) ← readPatchU8 st.inst
      let entry := codeEntry code
      let st ← applyInst source targetStart targetLen entry.inst1 { st with inst }
      let st ← applyInst source targetStart targetLen entry.inst2 st
      applyInstLoop source targetStart targetLen maxCount fuel (count + 1) st

/-- `apply_instructions`: the bytes of the window. -/
def applyInstructions (source addRun inst addr : Bytes) (targetStart targetLen : ℕ)
    (limits : VcdiffLimits) : Except PatchError Bytes := do
  rejectIf (targetStart + targetLen > u64Max) (.patchFailed "VCDIFF: target length overflow")
  let st ← applyInstLoop source targetStart targetLen limits.maxInstructionCount inst.length 0
    ⟨Cursor.ofBytes addRun, Cursor.ofBytes inst, Cursor.ofBytes addr, AddrCache.new, []⟩
  rejectIf (st.written.length ≠ targetLen)
    (.patchFailed "VCDIFF: target window not fully filled by instructions")
  rejectIf (!isAtEnd st.data) (.patchFailed "VCDIFF: ADD/RUN data section not fully consumed")
  rejectIf (!isAtEnd st.addr) (.patchFailed "VCDIFF: addresses section not fully consumed")
  pure st.written

/-! ### Windows -/

/-- `VCD_SOURCE`. -/
def vcdSource : UInt8 := 0x01

/-- `VCD_TARGET`. -/
def vcdTarget : UInt8 := 0x02

/-- Size and position of the source segment, if the window has one. -/
def sourceSegment (winIndicator : UInt8) : PatchParser (ℕ × ℕ) :=
  if winIndicator &&& (vcdSource ||| vcdTarget) ≠ 0 then do
    let size ← readVarint
    let pos ← readVarint
    pure (size, pos)
  else pure (0, 0)

/-- The bounds of the source segment, in the base or in the output decoded so far. -/
def checkSourceSegment (winIndicator : UInt8) (size pos baseLen outputLen : ℕ) :
    Except PatchError Unit :=
  if winIndicator &&& vcdSource ≠ 0 then do
    rejectIf (pos + size > u64Max) (.patchFailed "VCDIFF: source segment overflow")
    rejectIf (pos + size > baseLen)
      (.patchFailed "VCDIFF: VCD_SOURCE segment references bytes beyond base")
  else if winIndicator &&& vcdTarget ≠ 0 then do
    rejectIf (pos + size > u64Max) (.patchFailed "VCDIFF: target segment overflow")
    rejectIf (pos + size > outputLen)
      (.patchFailed "VCDIFF: VCD_TARGET segment references bytes beyond decoded output")
  else pure ()

/-- The bytes of the source segment. -/
def sourceBytes (winIndicator : UInt8) (size pos : ℕ) (base output : Bytes) : Bytes :=
  if winIndicator &&& vcdSource ≠ 0 then (base.drop pos).take size
  else if winIndicator &&& vcdTarget ≠ 0 then (output.drop pos).take size
  else []

/-- `decode_window`: the bytes the window adds to `output`. -/
def decodeWindow (base output : Bytes) (limits : VcdiffLimits) : PatchParser Bytes := do
  let winIndicator ← readPatchU8
  check (rejectIf (winIndicator &&& vcdSource ≠ 0 ∧ winIndicator &&& vcdTarget ≠ 0)
    (.patchFailed "VCDIFF: VCD_SOURCE and VCD_TARGET both set in Win_Indicator"))
  check (rejectIf (winIndicator &&& ~~~(vcdSource ||| vcdTarget) ≠ 0)
    (.patchFailed "VCDIFF: reserved bits set in Win_Indicator"))
  let (ssSize, ssPos) ← sourceSegment winIndicator
  check (checkSourceSegment winIndicator ssSize ssPos base.length output.length)
  let deltaEncodingLength ← readVarint
  let left ← remaining
  check (rejectIf (deltaEncodingLength > left)
    (.patchFailed "VCDIFF: delta_encoding_length exceeds remaining patch bytes"))
  let deltaStart ← position
  let targetWindowLength ← readVarint
  check (rejectIf (output.length + targetWindowLength > u64Max)
    (.patchFailed "VCDIFF: target window length overflow"))
  check (rejectIf (output.length + targetWindowLength > limits.maxOutputSize)
    (.limitExceeded "VCDIFF: output size exceeds max_output_size limit"))
  let deltaIndicator ← readPatchU8
  check (rejectIf (deltaIndicator &&& 0x07 ≠ 0)
    (.unsupported "VCDIFF: secondary compression in delta sections not supported"))
  let lenAddRun ← readVarint
  let lenInst ← readVarint
  let lenAddr ← readVarint
  let addRunData ← readPatchBytes lenAddRun
  let instBytes ← readPatchBytes lenInst
  let addrBytes ← readPatchBytes lenAddr
  let deltaEnd ← position
  check (rejectIf (deltaEnd - deltaStart ≠ deltaEncodingLength)
    (.patchFailed "VCDIFF: delta_encoding_length mismatch"))
  check (applyInstructions (sourceBytes winIndicator ssSize ssPos base output) addRunData.val
    instBytes.val addrBytes.val output.length targetWindowLength limits)

/-- The window loop of `apply_vcdiff`. Every window reads a byte, so `fuel` is the length of
the patch. -/
def decodeWindows (base : Bytes) (limits : VcdiffLimits) :
    ℕ → ℕ → Bytes → PatchParser Bytes
  | 0, _, output => pure output
  | fuel + 1, windowCount, output => do
    let left ← remaining
    if left = 0 then pure output
    else do
      check (rejectIf (windowCount ≥ limits.maxWindowCount)
        (.limitExceeded "VCDIFF: window count exceeds max_window_count limit"))
      let window ← decodeWindow base output limits
      check (rejectIf ((output ++ window).length > limits.maxOutputSize)
        (.limitExceeded "VCDIFF: output size exceeds max_output_size limit"))
      decodeWindows base limits fuel (windowCount + 1) (output ++ window)

/-- `VCDIFF_STREAM_HEADER`. -/
def vcdiffStreamHeader : Bytes := [0xD6, 0xC3, 0xC4, 0x00]

/-- The stream header and the header indicator. -/
def vcdiffHeader : PatchParser Unit := do
  let header ← readPatchBytes 4
  check (rejectIf (header.val ≠ vcdiffStreamHeader) (.patchFailed "VCDIFF: magic bytes mismatch"))
  let hdrIndicator ← readPatchU8
  let compressorId ← optional (hdrIndicator &&& 0x01 != 0) readPatchU8
  check (rejectIf (compressorId.getD 0 ≠ 0)
    (.unsupported "VCDIFF: secondary compressor not supported"))
  check (rejectIf (hdrIndicator &&& 0x02 ≠ 0)
    (.patchFailed "VCDIFF: custom code table (VCD_CODETABLE) not supported"))

/-- `apply_vcdiff`. -/
def applyVcdiff (base patch : Bytes) (expectedTargetSize : ℕ) (limits : VcdiffLimits) :
    Except PatchError Bytes := do
  rejectIf (patch.length > limits.maxPatchSize)
    (.limitExceeded "VCDIFF: patch payload exceeds max_patch_size limit")
  let ((), body) ← vcdiffHeader (Cursor.ofBytes patch)
  let (output, _) ← decodeWindows base limits patch.length 0 [] body
  rejectIf (output.length ≠ expectedTargetSize)
    (.patchFailed "VCDIFF: reconstructed output size does not match expected target size")
  pure output

/-! ### The generator -/

/-- The base-128 digits of a number below `128 ^ fuel`, least significant first. -/
def varintDigits : ℕ → ℕ → Bytes
  | 0, _ => []
  | fuel + 1, n => if n = 0 then [] else UInt8.ofNat (n % 128) :: varintDigits fuel (n / 128)

/-- `encode_varint` of a 64-bit number, which has at most ten digits. -/
def encodeVarint (v : ℕ) : Bytes :=
  match varintDigits 10 v with
  | [] => [0x00]
  | last :: digits => digits.reverse.map (· ||| 0x80) ++ [last]

/-- The instruction section of a generated window: code 1 is `ADD` with a varint size. -/
def generatedInst (targetLen : ℕ) : Bytes := 0x01 :: encodeVarint targetLen

/-- The delta encoding of a generated window. -/
def generatedDelta (target : Bytes) : Bytes :=
  encodeVarint target.length ++ ([0x00] ++ (encodeVarint target.length ++
    (encodeVarint (generatedInst target.length).length ++ (encodeVarint 0 ++
    (target ++ generatedInst target.length)))))

/-- `generate_vcdiff_patch`. The base is not used; the two sums the source builds step by step
with overflow checks are checked once, at their end. -/
def generateVcdiffPatch (_base target : Bytes) (limits : VcdiffLimits) :
    Except PatchError Bytes := do
  rejectIf (target.length > limits.maxOutputSize)
    (.limitExceeded "VCDIFF generate: target length exceeds max_output_size limit")
  if target = [] then do
    let patch := vcdiffStreamHeader ++ [0x00]
    rejectIf (patch.length > limits.maxPatchSize)
      (.limitExceeded "VCDIFF generate: total patch size exceeds max_patch_size limit")
    pure patch
  else do
    rejectIf (limits.maxWindowCount < 1)
      (.limitExceeded "VCDIFF generate: max_window_count limit is too low (requires at least 1)")
    rejectIf (limits.maxInstructionCount < 1)
      (.limitExceeded
        "VCDIFF generate: max_instruction_count limit is too low (requires at least 1)")
    let delta := generatedDelta target
    rejectIf (delta.length > u64Max)
      (.limitExceeded "VCDIFF generate: delta_encoding_length overflow")
    let patch := vcdiffStreamHeader ++ ([0x00] ++ ([0x00] ++ (encodeVarint delta.length ++ delta)))
    rejectIf (patch.length > u64Max) (.limitExceeded "VCDIFF generate: total patch size overflow")
    rejectIf (patch.length > limits.maxPatchSize)
      (.limitExceeded "VCDIFF generate: total patch size exceeds max_patch_size limit")
    pure patch

/-! ### Reading -/

theorem varintDigit_and : ∀ n < 128,
    (UInt8.ofNat n &&& 0x7F).toNat = n ∧ UInt8.ofNat n &&& 0x80 = 0 := by
  decide

theorem reads_patchU8 (b : UInt8) : Reads readPatchU8 [b] b := fun _ _ => rfl

theorem reads_patchBytes (bs : Bytes) : Reads (readPatchBytes bs.length) bs ⟨bs, rfl⟩ :=
  Reads.octets _ bs

theorem decodeWindows_atEnd (base : Bytes) (limits : VcdiffLimits) (fuel n pos : ℕ)
    (output : Bytes) :
    decodeWindows base limits fuel n output ⟨pos, []⟩ = .ok (output, ⟨pos, []⟩) := by
  cases fuel with
  | zero => rfl
  | succ fuel => simp [decodeWindows, bind_apply, remaining_apply, Except.ok_bind]

theorem vcdiffHeader_eq (r : Bytes) :
    vcdiffHeader (Cursor.ofBytes (vcdiffStreamHeader ++ ([0x00] ++ r))) = .ok ((), ⟨5, r⟩) := by
  have h : ReadsAt vcdiffHeader 0 (vcdiffStreamHeader ++ [0x00]) () := by
    refine ReadsAt.bind (reads_patchBytes vcdiffStreamHeader _) ?_
    refine ReadsAt.check_bind (Except.rejectIf_of_not (by simp)) ?_
    refine ReadsAt.bind_nil (reads_patchU8 0x00 _) ?_
    exact Reads.pure () _
  simpa [Cursor.ofBytes, vcdiffStreamHeader] using h r

end Sar
