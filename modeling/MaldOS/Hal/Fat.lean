import MaldOS.Hal.Sd

/-!
`fat.c`: the mounted volume, the one-sector cache of its table, and the files
read and written through a buffer of 4096 bytes. The log is left out. A buffer's
`overrun` is never cleared, so it tells of every access since the start.
-/
namespace Fat
open Arch ByteMemory Slices Sd

/-- `CACHEDFATSIZE`, in entries of four bytes -/
abbrev cachedfatsize : Nat := 512 / 4

/-- The globals of the module and, as `buffer`, the local one of `fat_readfile` and
    `fat_writefile`, which is never cleared. -/
structure Volume where
  card : Card
  partitionlba : Nat
  rootDirectorySector : Nat
  bytesPerSector : Nat
  biosPartitionBlock : Buffer Byte
  rootDir : Buffer Byte
  cachedFAT : Buffer Byte
  lastEntrySectorOffset : Nat
  buffer : Buffer Byte

def word (n : Nat) (b : Nat → Byte) (offset : Nat) : Nat :=
  ofBytes ((List.range n).map fun i => b (offset + i))

/-! The fields of `bpb_t`. -/

def Volume.spc (s : Volume) : Nat := word 1 s.biosPartitionBlock.get 13

def Volume.rsc (s : Volume) : Nat := word 2 s.biosPartitionBlock.get 14

def Volume.nf (s : Volume) : Nat := word 1 s.biosPartitionBlock.get 16

/-- `nr0` and `nr1` -/
def Volume.nr (s : Volume) : Nat := word 2 s.biosPartitionBlock.get 17

def Volume.spf32 (s : Volume) : Nat := word 4 s.biosPartitionBlock.get 36

def static (size : Nat) : Buffer Byte := ⟨size, fun _ => 0, false⟩

def staticVolume (card : Card) (stack : Nat → Byte) : Volume where
  card := card
  partitionlba := 0
  rootDirectorySector := 0
  bytesPerSector := 0
  biosPartitionBlock := static 512
  rootDir := static (512 * 4)
  cachedFAT := static (cachedfatsize * 4)
  lastEntrySectorOffset := 0
  buffer := ⟨4096, stack, false⟩

def isFat (b : Nat → Byte) (offset : Nat) : Bool :=
  b offset = 0x46 && b (offset + 1) = 0x41 && b (offset + 2) = 0x54

/-- The part of `fat_getpartition` that reads the two boot sectors; false where it returns 0. -/
def readBootRecord (s : Volume) : Bool × Volume :=
  let (r, mbr, card) := sdTransferblock s.card 0 (static 512) 1 .sdReadblock
  let s := { s with card := card }
  if r = 0 then (true, s)
  else if mbr.get 510 ≠ 0x55 ∨ mbr.get 511 ≠ 0xAA then (false, s)
  else if mbr.get 0x1C2 ≠ 0xB ∧ mbr.get 0x1C2 ≠ 0xC then (false, s)
  else
    let s := { s with partitionlba := word 4 mbr.get 0x1C6 }
    let (r, bpb, card) :=
      sdTransferblock s.card s.partitionlba s.biosPartitionBlock 1 .sdReadblock
    let s := { s with card := card, biosPartitionBlock := bpb }
    if r = 0 then (false, s)
    else if !isFat bpb.get 54 && !isFat bpb.get 82 then (false, s)
    else (true, s)

def fatGetpartition (s : Volume) : Int × Volume :=
  let (ok, s) := readBootRecord s
  if !ok then (0, s)
  else
    let s := { s with
      rootDirectorySector := u32 (u32 (s.spf32 * s.nf + s.rsc) + s.partitionlba)
      bytesPerSector := word 2 s.biosPartitionBlock.get 11 }
    if s.bytesPerSector ≠ 512 then (0, s)
    else
      let (_, cachedFAT, card) := sdTransferblock s.card (s.partitionlba + s.rsc) s.cachedFAT
        (cachedfatsize * 4 / s.bytesPerSector) .sdReadblock
      (1, { s with card := card, cachedFAT := cachedFAT })

def fatGetTableEntry (s : Volume) (index : Nat) : Nat × Volume :=
  let entrySectorOffset := u32 (index * 4) / s.bytesPerSector
  let cachedBlocks := cachedfatsize * 4 / s.bytesPerSector
  let s :=
    if entrySectorOffset < s.lastEntrySectorOffset ∨
        entrySectorOffset ≥ s.lastEntrySectorOffset + cachedBlocks then
      let (_, cachedFAT, card) := sdTransferblock s.card
        (u32 (s.partitionlba + s.rsc) + entrySectorOffset) s.cachedFAT cachedBlocks .sdReadblock
      { s with card := card, cachedFAT := cachedFAT }
    else s
  (word 4 s.cachedFAT.get (4 * (index % cachedfatsize)),
    { s with lastEntrySectorOffset := u32 entrySectorOffset })

/-- `dir->name[0]` and so on, for the directory entry at `dir`. -/
def entryCluster (b : Nat → Byte) (dir : Nat) : Nat := word 2 b (dir + 20) * 2 ^ 16 + word 2 b (dir + 26)

/-- The scan of `fat_getcluster` over the entries from number `dir` on; `none` when it
    leaves the `left` entries that `root_dir` still has. -/
def scanDirectory (b : Nat → Byte) (fn : List Byte) : Nat → Nat → Option Nat
  | 0, _ => none
  | left + 1, dir =>
    if b (dir * 32) = 0 then some 0
    else if b (dir * 32) = 0xE5 ∨ b (dir * 32 + 11) = 0xF then scanDirectory b fn left (dir + 1)
    else if (List.range 11).map (fun i => b (dir * 32 + i)) = fn.take 11 then
      some (entryCluster b (dir * 32))
    else scanDirectory b fn left (dir + 1)

def fatGetcluster (s : Volume) (fn : List Byte) : Option Nat × Volume :=
  let (r, dir, card) := sdTransferblock s.card s.rootDirectorySector s.rootDir
    (s.nr * 32 / s.bytesPerSector + 1) .sdReadblock
  let s := { s with card := card, rootDir := dir }
  if r = 0 then (some 0, s) else (scanDirectory dir.get fn 64 0, s)

/-- The loop of `fat_listdirectory`, which clears the attribute of each entry it lists. -/
def listDirectory (b : Nat → Byte) : Nat → Nat → Option (Nat → Byte)
  | 0, _ => none
  | left + 1, dir =>
    if b (dir * 32) = 0 then some b
    else if b (dir * 32) = 0xE5 ∨ b (dir * 32 + 11) = 0xF then listDirectory b left (dir + 1)
    else listDirectory (Function.update b (dir * 32 + 11) 0) left (dir + 1)

def fatListdirectory (s : Volume) : Option Volume :=
  let (r, dir, card) := sdTransferblock s.card s.rootDirectorySector s.rootDir
    (s.nr * 32 / s.bytesPerSector + 1) .sdReadblock
  let s := { s with card := card, rootDir := dir }
  if r = 0 then some s
  else (listDirectory dir.get 64 0).map fun b => { s with rootDir := { dir with get := b } }

def dataSec (s : Volume) : Nat := u32 (u32 (s.spf32 * s.nf + s.rsc) + s.partitionlba)

/-- The loop of `fat_transferfile`, with `left` for `num - counter`. -/
def transferLoop (s : Volume) (data : Buffer Byte) (readwrite : ReadWrite) :
    Nat → Nat → Int × Buffer Byte × Volume
  | left, cluster =>
    if 1 < cluster ∧ cluster < 0xFFF8 then
      match left with
      | 0 =>
        let (tmp, data, card) := sdTransferblock s.card ((cluster - 2) * s.spc + dataSec s) data
          s.spc readwrite
        (if tmp ≤ 0 then -1 else tmp, data, { s with card := card })
      | left + 1 =>
        let (cluster, s) := fatGetTableEntry s cluster
        transferLoop s data readwrite left cluster
    else (0, data, s)

def fatTransferfile (s : Volume) (cluster : Nat) (data : Buffer Byte) (num : Nat)
    (readwrite : ReadWrite) : Int × Buffer Byte × Volume :=
  transferLoop s data readwrite num cluster

/-- The loop of `fat_readfile`; `none` when `fuel` rounds do not end it. -/
def readLoop (cluster : Nat) :
    Nat → Volume → (Nat → Byte) → Nat → Nat → Nat → Nat → Option (Nat × (Nat → Byte) × Volume)
  | 0, _, _, _, _, _, _ => none
  | fuel + 1, s, data, clusterNum, start, index, length =>
    if length > 0 then
      let (size, buffer, s) := fatTransferfile s cluster s.buffer clusterNum .sdReadblock
      let s := { s with buffer := buffer }
      if size ≤ 0 then some (index, data, s)
      else
        let rest := u32 (size.toNat + 2 ^ 32 - start)
        let effectiveLen := if rest < length then rest else length
        let s := { s with buffer := s.buffer.touch start effectiveLen }
        let data := blit data index (fun i => s.buffer.get (start + i)) effectiveLen
        readLoop cluster fuel s data (u32 (clusterNum + 1)) 0 (u32 (index + effectiveLen))
          (length - effectiveLen)
    else some (index, data, s)

/-- `data` is the memory at the pointer, with no end known here. -/
def fatReadfile (s : Volume) (cluster : Nat) (data : Nat → Byte) (seek length : Nat) :
    Option (Int × (Nat → Byte) × Volume) :=
  let size := u32 (s.bytesPerSector * s.spc)
  (readLoop cluster (length + 2) s data (seek / size) (seek % size) 0 length).map
    fun (index, data, s) => (i32 index, data, s)

/-- The loop of `fat_writefile`; `none` when `fuel` rounds do not end it. -/
def writeLoop (cluster : Nat) (data : Nat → Byte) :
    Nat → Volume → Nat → Nat → Nat → Nat → Option (Nat × Volume)
  | 0, _, _, _, _, _ => none
  | fuel + 1, s, clusterNum, start, index, length =>
    if length > 0 then
      let (size, buffer, s) := fatTransferfile s cluster s.buffer clusterNum .sdReadblock
      let s := { s with buffer := buffer }
      if size ≤ 0 then some (index, s)
      else
        let effectiveLen := if size.toNat < length then size.toNat else length
        let s := { s with buffer := s.buffer.put start (fun i => data (index + i)) effectiveLen }
        let (_, buffer, s) := fatTransferfile s cluster s.buffer clusterNum .sdWriteblock
        let s := { s with buffer := buffer }
        writeLoop cluster data fuel s (u32 (clusterNum + 1)) 0 (u32 (index + effectiveLen))
          (length - effectiveLen)
    else some (index, s)

def fatWritefile (s : Volume) (cluster : Nat) (data : Nat → Byte) (seek length : Nat) :
    Option (Int × Volume) :=
  let size := u32 (s.bytesPerSector * s.spc)
  (writeLoop cluster data (length + 1) s (seek / size) (seek % size) 0 length).map
    fun (index, s) => (i32 index, s)

end Fat
