import Fod.Data.Store
import Fod.Lib.CopyBinary
import Fod.Lib.Scan

/-!
# Blocks as rows of COPY BINARY

`append_persist_block_copy_binary_row` and what the server reads from the rows that it
appends.
-/

namespace Fod.Data

open CopyBinary ZeroPadded

def crc32TableEntry (i : UInt32) : UInt32 :=
  (fun crc : UInt32 => if crc &&& 1 ≠ 0 then (crc >>> 1) ^^^ 0xEDB88320 else crc >>> 1)^[8] i

def crc32Bytes (data : Bytes) : UInt32 :=
  ~~~ data.foldl (fun crc byte => (crc >>> 8) ^^^ crc32TableEntry ((crc ^^^ byte.toUInt32) &&& 0xFF))
    0xFFFFFFFF

def normalizeBlockBytes (bytes : Bytes) (targetLen : Nat) : Bytes :=
  let payloadLen := min bytes.length targetLen
  bytes.take payloadLen ++ List.replicate (targetLen - payloadLen) 0

def isAllZeroBlock (data : Bytes) : Bool := data.all (· == 0)

def appendCopyBinaryI16 (out : Bytes) (value : Int) : Bytes := out ++ intBytes 2 value

def appendCopyBinaryI32 (out : Bytes) (value : Int) : Bytes := out ++ intBytes 4 value

def appendCopyBinaryI64 (out : Bytes) (value : Int) : Bytes := out ++ intBytes 8 value

def appendCopyBinaryI64Field (out : Bytes) (value : Int) : Bytes :=
  appendCopyBinaryI64 (appendCopyBinaryI32 out 8) value

def appendCopyBinaryNullField (out : Bytes) : Bytes := appendCopyBinaryI32 out (-1)

def appendCopyBinaryPaddedBytesField (out bytes : Bytes) (targetLen : Nat) : Except String Bytes :=
  let payloadLen := min bytes.length targetLen
  if targetLen < 2 ^ 31 then
    .ok (appendCopyBinaryI32 out targetLen ++ bytes.take payloadLen ++
      List.replicate (targetLen - payloadLen) 0)
  else .error "copy field too large"

def appendCopyBinaryHeader (out : Bytes) : Bytes :=
  appendCopyBinaryI32 (appendCopyBinaryI32 (out ++ signature) 0) 0

def appendBlockData (out normalized : Bytes) (bs : Nat) : Except String Bytes :=
  if isAllZeroBlock normalized then .ok (appendCopyBinaryNullField out)
  else appendCopyBinaryPaddedBytesField out normalized bs

def appendBlockCrc (out : Bytes) : Option Int → Bytes
  | some crc => appendCopyBinaryI64Field out crc
  | none => appendCopyBinaryNullField out

def blockCrc (normalized : Bytes) (usedLen bs : Nat) : Option Int :=
  if !isAllZeroBlock normalized && bs ≤ usedLen then some (crc32Bytes normalized).toNat else none

def appendPersistBlockCopyBinaryRow (dataObjectId : Int64) (bs : Nat) (out : Bytes)
    (block : PersistBlockRow) : Except String Bytes :=
  let bs := max bs 1
  if 2 ^ 63 ≤ block.blockIndex then .error "block index out of range for copy staging"
  else
    let normalized := normalizeBlockBytes block.data bs
    let out := appendCopyBinaryI64Field (appendCopyBinaryI16 out 4) dataObjectId.toInt
    let out := appendCopyBinaryI64Field out block.blockIndex
    do
      let out ← appendBlockData out normalized bs
      .ok (appendBlockCrc out (blockCrc normalized block.usedLen bs))

/-! ## The row of the staging table -/

structure StagedBlock where
  dataObjectId : Int
  order : Int
  data : Option Bytes
  crc32 : Option Int
  deriving DecidableEq

def bigint (bytes : Bytes) : Option Int := if bytes.length = 8 then some (ofIntBytes bytes) else none

def nullableBigint : Field → Option (Option Int)
  | none => some none
  | some bytes => (bigint bytes).map some

/-- `data_object_id BIGINT NOT NULL, _order BIGINT NOT NULL, data BYTEA, crc32 BIGINT` -/
def stagedBlock : List Field → Option StagedBlock
  | [some dataObjectId, some order, data, crc32] => do
    let dataObjectId ← bigint dataObjectId
    let order ← bigint order
    let crc32 ← nullableBigint crc32
    some { dataObjectId, order, data, crc32 }
  | _ => none

def PersistBlockRow.staged (dataObjectId : Int64) (bs : Nat) (block : PersistBlockRow) : StagedBlock :=
  let padded := fit block.data bs
  { dataObjectId := dataObjectId.toInt
    order := block.blockIndex
    data := if ∀ byte ∈ padded, byte = 0 then none else some padded
    crc32 := if block.usedLen < bs ∨ ∀ byte ∈ padded, byte = 0 then none
      else some (crc32Bytes padded).toNat }

def PersistBlockRow.fields (dataObjectId : Int64) (bs : Nat) (block : PersistBlockRow) : List Field :=
  let row := block.staged dataObjectId bs
  [some (intBytes 8 row.dataObjectId), some (intBytes 8 row.order), row.data, row.crc32.map (intBytes 8)]

section

variable {dataObjectId : Int64} {bs : Nat} {out out' : Bytes} {block : PersistBlockRow}

lemma normalizeBlockBytes_eq (bytes : Bytes) (n : Nat) : normalizeBlockBytes bytes n = fit bytes n := by
  rcases Nat.le_total bytes.length n with h | h
  · simp [normalizeBlockBytes, fit, h, List.take_of_length_le]
  · simp [normalizeBlockBytes, fit, h]

lemma isAllZeroBlock_iff (data : Bytes) : isAllZeroBlock data = true ↔ ∀ byte ∈ data, byte = 0 := by
  simp [isAllZeroBlock]

lemma blockCrc_eq (usedLen : Nat) (data : Bytes) :
    blockCrc data usedLen bs =
      if usedLen < bs ∨ ∀ byte ∈ data, byte = 0 then none else some ((crc32Bytes data).toNat : Int) := by
  simp only [blockCrc, ← isAllZeroBlock_iff]
  grind

lemma appendBlockCrc_eq (out : Bytes) (crc : Option Int) :
    appendBlockCrc out crc = out ++ fieldBytes (crc.map (intBytes 8)) := by
  cases crc <;> simp [appendBlockCrc, appendCopyBinaryI64Field, appendCopyBinaryI64, appendCopyBinaryI32,
    appendCopyBinaryNullField, fieldBytes]

lemma of_appendBlockData {data : Bytes} (hlength : data.length = bs)
    (h : appendBlockData out data bs = .ok out') :
    out' = out ++ fieldBytes (if ∀ byte ∈ data, byte = 0 then none else some data) ∧
      FieldFits (if ∀ byte ∈ data, byte = 0 then none else some data) := by
  simp only [← isAllZeroBlock_iff]
  unfold appendBlockData at h
  split at h
  next hzero =>
    cases h
    simp [hzero, fieldBytes, appendCopyBinaryNullField, appendCopyBinaryI32, FieldFits]
  next hdata =>
    unfold appendCopyBinaryPaddedBytesField at h
    split at h
    next hfits =>
      cases h
      subst hlength
      simp [hdata, fieldBytes, appendCopyBinaryI32, FieldFits]
      exact hfits
    next => cases h

lemma of_appendRow (hbs : 0 < bs)
    (h : appendPersistBlockCopyBinaryRow dataObjectId bs out block = .ok out') :
    out' = out ++ tupleBytes (block.fields dataObjectId bs) ∧ block.blockIndex < 2 ^ 63 ∧
      FieldFits (block.staged dataObjectId bs).data := by
  unfold appendPersistBlockCopyBinaryRow at h
  rw [Nat.max_eq_left hbs] at h
  dsimp only at h
  split at h
  next => cases h
  next hindex =>
    obtain ⟨mid, hdata, h⟩ := Scan.ok_of_bind h
    cases h
    rw [normalizeBlockBytes_eq] at hdata ⊢
    obtain ⟨rfl, hfits⟩ := of_appendBlockData length_fit hdata
    refine ⟨?_, by omega, hfits⟩
    rw [appendBlockCrc_eq, blockCrc_eq]
    simp [tupleBytes, PersistBlockRow.fields, PersistBlockRow.staged, fieldBytes,
      appendCopyBinaryI64Field, appendCopyBinaryI64, appendCopyBinaryI32, appendCopyBinaryI16]

lemma fields_fit (h : FieldFits (block.staged dataObjectId bs).data) :
    ∀ field ∈ block.fields dataObjectId bs, FieldFits field := by
  simp only [PersistBlockRow.fields, List.mem_cons, List.not_mem_nil, or_false]
  rintro field (rfl | rfl | rfl | rfl)
  · simp [FieldFits]
  · simp [FieldFits]
  · exact h
  · simp [FieldFits]

lemma bigint_intBytes {v : Int} (h : Fits 8 v) : bigint (intBytes 8 v) = some v := by
  simp [bigint, ofIntBytes_intBytes h]

lemma stagedBlock_fields (hindex : block.blockIndex < 2 ^ 63) :
    stagedBlock (block.fields dataObjectId bs) = some (block.staged dataObjectId bs) := by
  have hid : Fits 8 dataObjectId.toInt := ⟨dataObjectId.le_toInt, dataObjectId.toInt_lt⟩
  have horder : Fits 8 block.blockIndex := fits_natCast hindex
  have hcrc (data : Bytes) : Fits 8 (crc32Bytes data).toNat := by
    apply fits_natCast
    have := (crc32Bytes data).toNat_lt
    omega
  simp only [PersistBlockRow.fields, stagedBlock, PersistBlockRow.staged, bigint_intBytes hid,
    bigint_intBytes horder, Option.bind_eq_bind, Option.bind_some]
  split <;> simp [nullableBigint, bigint_intBytes (hcrc _)]

lemma of_appendRows (hbs : 0 < bs) {blocks : List PersistBlockRow}
    (h : blocks.foldlM (appendPersistBlockCopyBinaryRow dataObjectId bs) out = .ok out') :
    out' = out ++ (blocks.map (·.fields dataObjectId bs)).flatMap tupleBytes ∧
      ∀ block ∈ blocks, block.blockIndex < 2 ^ 63 ∧ FieldFits (block.staged dataObjectId bs).data := by
  induction blocks generalizing out with
  | nil =>
    cases h
    simp
  | cons block blocks ih =>
    obtain ⟨mid, hrow, hrest⟩ := Scan.ok_of_bind h
    obtain ⟨rfl, hindex, hdata⟩ := of_appendRow hbs hrow
    obtain ⟨rfl, hall⟩ := ih hrest
    refine ⟨by simp, fun b hb => ?_⟩
    rcases List.mem_cons.mp hb with rfl | hb
    · exact ⟨hindex, hdata⟩
    · exact hall b hb

end

/-- The rows that were appended, with the trailer after them, are read as the blocks. -/
theorem copyBinary_roundTrip (dataObjectId : Int64) (bs : Nat) (hbs : 0 < bs)
    (blocks : List PersistBlockRow) (out : Bytes)
    (hok : blocks.foldlM (appendPersistBlockCopyBinaryRow dataObjectId bs) (appendCopyBinaryHeader []) =
      .ok out) :
    (decode (appendCopyBinaryI16 out (-1))).bind (·.mapM stagedBlock) =
      some (blocks.map (·.staged dataObjectId bs)) := by
  obtain ⟨rfl, hall⟩ := of_appendRows hbs hok
  have hheader : appendCopyBinaryHeader [] = header := by
    simp [appendCopyBinaryHeader, appendCopyBinaryI32, header]
  have hcount : ∀ fields ∈ blocks.map (·.fields dataObjectId bs), fields.length < 2 ^ 15 := by
    intro fields hfields
    obtain ⟨block, _, rfl⟩ := List.mem_map.mp hfields
    exact (by decide : 4 < 2 ^ 15)
  have hfits : ∀ fields ∈ blocks.map (·.fields dataObjectId bs), ∀ field ∈ fields, FieldFits field := by
    intro fields hfields
    obtain ⟨block, hblock, rfl⟩ := List.mem_map.mp hfields
    exact fields_fit (hall block hblock).2
  rw [hheader, appendCopyBinaryI16, ← trailer, decode_append hcount hfits, Option.bind_some]
  exact Scan.mapM_map_eq_pure blocks fun block hblock => stagedBlock_fields (hall block hblock).1

theorem copyBinary_roundTrip_three_rows :
    ([⟨0, [1, 2], 2⟩, ⟨5, [7], 1⟩, ⟨6, [0, 0, 9], 2⟩].map (PersistBlockRow.staged 11 2)) =
        [⟨11, 0, some [1, 2], some 3066839698⟩, ⟨11, 5, some [7, 0], none⟩, ⟨11, 6, none, none⟩] ∧
      ∃ out, (decode (appendCopyBinaryI16 out (-1))).bind (·.mapM stagedBlock) =
        some ([⟨0, [1, 2], 2⟩, ⟨5, [7], 1⟩, ⟨6, [0, 0, 9], 2⟩].map (PersistBlockRow.staged 11 2)) :=
  ⟨by decide +kernel, _, copyBinary_roundTrip 11 2 (by decide) _ _ rfl⟩

end Fod.Data
