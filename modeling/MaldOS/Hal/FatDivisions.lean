import MaldOS.Hal.FatBuffers
import MaldOS.Hal.FatKeeps

/-!
The divisors of `fat.c`. They come from the boot record that `fat_getpartition`
read: `bytes_per_sector`, which stays zero where it gave up earlier, and the size
of a cluster.
-/
namespace Fat
open Arch ByteMemory Slices Sd Runs

/-- The divisions of `fat_getpartition`: that by `bytes_per_sector` comes after its check. -/
def mountDivisors (s : Volume) : List Nat :=
  let (ok, s) := readBootRecord s
  if !ok then []
  else
    let bytesPerSector := word 2 s.biosPartitionBlock.get 11
    if bytesPerSector ≠ 512 then [] else [bytesPerSector]

def entryDivisors (s : Volume) (index : Nat) : List Nat :=
  let entrySectorOffset := u32 (index * 4) / s.bytesPerSector
  let cachedBlocks := cachedfatsize * 4 / s.bytesPerSector
  [s.bytesPerSector, s.bytesPerSector] ++
    (if entrySectorOffset < s.lastEntrySectorOffset ∨
        entrySectorOffset ≥ s.lastEntrySectorOffset + cachedBlocks then [s.bytesPerSector]
      else []) ++ [cachedfatsize]

def fileDivisors : Nat → Volume → Nat → List Nat
  | left, s, cluster =>
    if 1 < cluster ∧ cluster < 0xFFF8 then
      match left with
      | 0 => []
      | left + 1 =>
        entryDivisors s cluster ++
          fileDivisors left (fatGetTableEntry s cluster).2 (fatGetTableEntry s cluster).1
    else []

def readDivisors (cluster : Nat) : Nat → Volume → Nat → Nat → Nat → List Nat
  | 0, _, _, _, _ => []
  | fuel + 1, s, clusterNum, start, length =>
    if length > 0 then
      let (size, buffer, s') := fatTransferfile s cluster s.buffer clusterNum .sdReadblock
      fileDivisors clusterNum s cluster ++
        if size ≤ 0 then []
        else
          let rest := u32 (size.toNat + 2 ^ 32 - start)
          let effectiveLen := if rest < length then rest else length
          readDivisors cluster fuel { s' with buffer := buffer.touch start effectiveLen }
            (u32 (clusterNum + 1)) 0 (length - effectiveLen)
    else []

def writeDivisors (cluster : Nat) (data : Nat → Byte) :
    Nat → Volume → Nat → Nat → Nat → Nat → List Nat
  | 0, _, _, _, _, _ => []
  | fuel + 1, s, clusterNum, start, index, length =>
    if length > 0 then
      let (size, buffer, s') := fatTransferfile s cluster s.buffer clusterNum .sdReadblock
      fileDivisors clusterNum s cluster ++
        if size ≤ 0 then []
        else
          let effectiveLen := if size.toNat < length then size.toNat else length
          let t := { s' with buffer := buffer.put start (fun i => data (index + i)) effectiveLen }
          let (_, buffer, s'') := fatTransferfile t cluster t.buffer clusterNum .sdWriteblock
          fileDivisors clusterNum t cluster ++
            writeDivisors cluster data fuel { s'' with buffer := buffer } (u32 (clusterNum + 1)) 0
              (u32 (index + effectiveLen)) (length - effectiveLen)
    else []

/-- The divisors of a call, in the order of its divisions and remainders. -/
def Call.divisors (s : Volume) : Call → List Nat
  | .list => [s.bytesPerSector]
  | .find _ => [s.bytesPerSector]
  | .read cluster _ seek length =>
    let size := u32 (s.bytesPerSector * s.spc)
    size :: size :: readDivisors cluster (length + 2) s (seek / size) (seek % size) length
  | .write cluster data seek length =>
    let size := u32 (s.bytesPerSector * s.spc)
    size :: size :: writeDivisors cluster data (length + 1) s (seek / size) (seek % size) 0 length

def Call.Transfers : Call → Prop
  | .list => False
  | .find _ => False
  | _ => True

def Divides (s : Volume) (calls : List Call) : Prop :=
  Along issue (fun s c => 0 ∉ c.divisors s) s calls

/-! What the divisors are. -/

theorem mount_divisors (s : Volume) : 0 ∉ mountDivisors s := by
  unfold mountDivisors
  dsimp only
  split_ifs with refused usual
  · simp
  · simp
  · rw [not_not.mp usual]
    simp

theorem entry_divisors {s : Volume} (sector : s.bytesPerSector ≠ 0) (index : Nat) :
    0 ∉ entryDivisors s index := by
  have other : (0 : Nat) ≠ s.bytesPerSector := sector.symm
  unfold entryDivisors
  dsimp only
  split_ifs <;> simp [other]

theorem file_divisors (left : Nat) {s : Volume} (sector : s.bytesPerSector ≠ 0) (cluster : Nat) :
    0 ∉ fileDivisors left s cluster := by
  induction left generalizing s cluster with
  | zero =>
    unfold fileDivisors
    split_ifs <;> simp
  | succ left ih =>
    unfold fileDivisors
    split_ifs
    · rw [List.mem_append, not_or]
      refine ⟨entry_divisors sector cluster, ih ?_ _⟩
      rw [(lookup_shape s cluster).sector]
      exact sector
    · simp

theorem transferfile_sector (s : Volume) (cluster num : Nat) (rw : ReadWrite) :
    (fatTransferfile s cluster s.buffer num rw).2.2.bytesPerSector = s.bytesPerSector :=
  (loop_shape s.buffer rw num s cluster).1.sector

theorem read_divisors (cluster fuel : Nat) {s : Volume} (sector : s.bytesPerSector ≠ 0)
    (clusterNum start length : Nat) : 0 ∉ readDivisors cluster fuel s clusterNum start length := by
  induction fuel generalizing s clusterNum start length with
  | zero => simp [readDivisors]
  | succ fuel ih =>
    unfold readDivisors
    dsimp only
    by_cases more : length > 0
    · rw [if_pos more, List.mem_append, not_or]
      refine ⟨file_divisors _ sector _, ?_⟩
      by_cases none : (fatTransferfile s cluster s.buffer clusterNum .sdReadblock).1 ≤ 0
      · simp [none]
      · rw [if_neg none]
        apply ih
        dsimp only
        rw [transferfile_sector]
        exact sector
    · simp [more]

theorem write_divisors (cluster : Nat) (data : Nat → Byte) (fuel : Nat) {s : Volume}
    (sector : s.bytesPerSector ≠ 0) (clusterNum start index length : Nat) :
    0 ∉ writeDivisors cluster data fuel s clusterNum start index length := by
  induction fuel generalizing s clusterNum start index length with
  | zero => simp [writeDivisors]
  | succ fuel ih =>
    unfold writeDivisors
    dsimp only
    by_cases more : length > 0
    · rw [if_pos more, List.mem_append, not_or]
      refine ⟨file_divisors _ sector _, ?_⟩
      by_cases none : (fatTransferfile s cluster s.buffer clusterNum .sdReadblock).1 ≤ 0
      · simp [none]
      · rw [if_neg none, List.mem_append, not_or]
        constructor
        · apply file_divisors
          dsimp only
          rw [transferfile_sector]
          exact sector
        · apply ih
          dsimp only
          rw [transferfile_sector]
          dsimp only
          rw [transferfile_sector]
          exact sector
    · simp [more]

theorem divides_iff (s : Volume) (c : Call) :
    0 ∉ c.divisors s ↔ s.bytesPerSector ≠ 0 ∧ (c.Transfers → u32 (s.bytesPerSector * s.spc) ≠ 0) := by
  have sector : u32 (s.bytesPerSector * s.spc) ≠ 0 → s.bytesPerSector ≠ 0 := by
    intro size zero
    rw [zero, Nat.zero_mul] at size
    exact size rfl
  cases c with
  | list => simp [Call.divisors, Call.Transfers, eq_comm]
  | find fn => simp [Call.divisors, Call.Transfers, eq_comm]
  | read cluster data seek length =>
    simp only [Call.divisors, Call.Transfers, List.mem_cons, not_or, true_implies,
      ne_comm (a := 0)]
    constructor
    · rintro ⟨size, -⟩
      exact ⟨sector size, size⟩
    · rintro ⟨some, size⟩
      exact ⟨size, size, read_divisors _ _ some _ _ _⟩
  | write cluster data seek length =>
    simp only [Call.divisors, Call.Transfers, List.mem_cons, not_or, true_implies,
      ne_comm (a := 0)]
    constructor
    · rintro ⟨size, -⟩
      exact ⟨sector size, size⟩
    · rintro ⟨some, size⟩
      exact ⟨size, size, write_divisors _ _ _ some _ _ _ _⟩

theorem issue_same (s : Volume) (c : Call) :
    (issue s c).bytesPerSector = s.bytesPerSector ∧
      (issue s c).biosPartitionBlock = s.biosPartitionBlock := by
  cases c with
  | list =>
    unfold issue fatListdirectory
    dsimp only
    split_ifs
    · exact ⟨rfl, rfl⟩
    · cases listDirectory _ 64 0 <;> exact ⟨rfl, rfl⟩
  | find fn =>
    unfold issue fatGetcluster
    dsimp only
    split_ifs <;> exact ⟨rfl, rfl⟩
  | read cluster data seek length =>
    have shape := readfile_shape s cluster data seek length
    exact ⟨shape.sector, shape.bpb⟩
  | write cluster data seek length =>
    have shape := writefile_shape s cluster data seek length
    exact ⟨shape.sector, shape.bpb⟩

theorem run_same (calls : List Call) (s : Volume) :
    (run issue s calls).bytesPerSector = s.bytesPerSector ∧
      (run issue s calls).biosPartitionBlock = s.biosPartitionBlock := by
  apply @run_invariant _ _ issue fun t =>
    t.bytesPerSector = s.bytesPerSector ∧ t.biosPartitionBlock = s.biosPartitionBlock
  · intro t c ⟨sector, bpb⟩
    obtain ⟨sector', bpb'⟩ := issue_same t c
    exact ⟨sector'.trans sector, bpb'.trans bpb⟩
  · exact ⟨rfl, rfl⟩

theorem run_spc (calls : List Call) (s : Volume) : (run issue s calls).spc = s.spc := by
  unfold Volume.spc
  rw [(run_same calls s).2]

theorem divides_run_iff (calls : List Call) (s : Volume) :
    Divides s calls ↔ ∀ c ∈ calls,
      s.bytesPerSector ≠ 0 ∧ (c.Transfers → u32 (s.bytesPerSector * s.spc) ≠ 0) := by
  unfold Divides
  rw [along_congr divides_iff]
  induction calls generalizing s with
  | nil => simp [Along]
  | cons c calls ih =>
    obtain ⟨sector, bpb⟩ := issue_same s c
    have cluster : (issue s c).spc = s.spc := by
      unfold Volume.spc
      rw [bpb]
    rw [List.forall_mem_cons, Along, ih, sector, cluster]

/-! The boot record. -/

/-- The first sector of the partition that the first entry of the table names. -/
def bootRecord (c : Card) : Nat → Byte := fun i => c.bytes (word 4 c.bytes 0x1C6 * 512 + i)

def bootSector (c : Card) : Nat := word 2 (bootRecord c) 11

/-- The card holds a partition of FAT32 with a boot record that names a sector size, and its first
    two transfers succeed. -/
structure Bootable (c : Card) : Prop where
  table : c.fault c.issued = none
  magic : c.bytes 510 = 0x55 ∧ c.bytes 511 = 0xAA
  type : c.bytes 0x1C2 = 0xB ∨ c.bytes 0x1C2 = 0xC
  record : c.fault (c.issued + 1) = none
  fat : isFat (bootRecord c) 54 ∨ isFat (bootRecord c) 82
  sector : bootSector c ≠ 0

def rootSector (c : Card) : Nat :=
  u32 (u32 (word 4 (bootRecord c) 36 * word 1 (bootRecord c) 16 + word 2 (bootRecord c) 14) +
    word 4 c.bytes 0x1C6)

/-- The transfers before the listing of the directory. -/
def mountIssued (c : Card) : Nat := c.issued + (if bootSector c = 512 then 3 else 2)

/-- What `fat_getpartition` makes of a bootable card. -/
structure Mounted (c : Card) (s : Volume) : Prop where
  sector : s.bytesPerSector = bootSector c
  bpb : ∀ i < 512, s.biosPartitionBlock.get i = bootRecord c i
  root : s.rootDirectorySector = rootSector c
  directory : s.rootDir = static (512 * 4)
  bytes : s.card.bytes = c.bytes
  fault : s.card.fault = c.fault
  issued : s.card.issued = mountIssued c

theorem isFat_congr {b b' : Nat → Byte} {offset : Nat}
    (same : ∀ i < 3, b (offset + i) = b' (offset + i)) : isFat b offset = isFat b' offset := by
  have first := same 0 (by decide)
  rw [Nat.add_zero] at first
  unfold isFat
  rw [first, same 1 (by decide), same 2 (by decide)]

theorem record_get (c : Card) {i : Nat} (inside : i < 512) :
    ((static 512).put 0 (fun i => c.bytes (u32 (word 4 c.bytes 0x1C6) * 512 + i)) 512).get i =
      bootRecord c i := by
  have address : u32 (word 4 c.bytes 0x1C6) = word 4 c.bytes 0x1C6 := u32_of_lt (word_lt 4 _ _)
  rw [put_get, blit_front _ _ inside, address]
  rfl

theorem mbr_get (c : Card) {i : Nat} (inside : i < 512) :
    ((static 512).put 0 (fun i => c.bytes (u32 0 * 512 + i)) 512).get i = c.bytes i := by
  have address : u32 0 * 512 + i = i := by
    unfold u32
    omega
  rw [put_get, blit_front _ _ inside, address]

def recorded (c : Card) (stack : Nat → Byte) : Volume :=
  { staticVolume c stack with
    card := { c with issued := c.issued + 2 }
    partitionlba := word 4 c.bytes 0x1C6
    biosPartitionBlock :=
      (static 512).put 0 (fun i => c.bytes (u32 (word 4 c.bytes 0x1C6) * 512 + i)) 512 }

theorem readBootRecord_table {c : Card} (stack : Nat → Byte) (table : c.fault c.issued = none) :
    readBootRecord (staticVolume c stack) =
      if c.bytes 510 ≠ 0x55 ∨ c.bytes 511 ≠ 0xAA then
        (false, { staticVolume c stack with card := { c with issued := c.issued + 1 } })
      else if c.bytes 0x1C2 ≠ 0xB ∧ c.bytes 0x1C2 ≠ 0xC then
        (false, { staticVolume c stack with card := { c with issued := c.issued + 1 } })
      else
        let (r, bpb, card) := sdTransferblock { c with issued := c.issued + 1 }
          (word 4 c.bytes 0x1C6) (static 512) 1 .sdReadblock
        let s := { staticVolume c stack with
          card := card, partitionlba := word 4 c.bytes 0x1C6, biosPartitionBlock := bpb }
        if r = 0 then (false, s)
        else if !isFat bpb.get 54 && !isFat bpb.get 82 then (false, s) else (true, s) := by
  have first := read_good table 0 (static 512) Nat.one_pos (by decide : 1 < 2 ^ 32)
  have start : word 4 ((static 512).put 0 (fun i => c.bytes (u32 0 * 512 + i)) 512).get 0x1C6 =
      word 4 c.bytes 0x1C6 := word_congr fun i inside => mbr_get c (by omega)
  unfold readBootRecord
  have card : (staticVolume c stack).card = c := rfl
  rw [card, first]
  dsimp only
  rw [if_neg (by decide), Nat.one_mul, mbr_get c (by decide), mbr_get c (by decide),
    mbr_get c (by decide), start]
  rfl

theorem readBootRecord_bootable {c : Card} (stack : Nat → Byte) (bootable : Bootable c) :
    readBootRecord (staticVolume c stack) = (true, recorded c stack) := by
  have second := read_good (c := { c with issued := c.issued + 1 }) bootable.record
    (word 4 c.bytes 0x1C6) (static 512) Nat.one_pos (by decide : 1 < 2 ^ 32)
  have signature : ∀ offset ≤ 500,
      isFat (recorded c stack).biosPartitionBlock.get offset = isFat (bootRecord c) offset :=
    fun offset inside => isFat_congr fun i few => record_get c (by omega)
  rw [readBootRecord_table stack bootable.table, if_neg (by simp [bootable.magic]),
    if_neg (by rcases bootable.type with type | type <;> simp [type]), second]
  dsimp only
  rw [if_neg (by decide), Nat.one_mul]
  have named : ¬ ((!isFat (recorded c stack).biosPartitionBlock.get 54 &&
      !isFat (recorded c stack).biosPartitionBlock.get 82) = true) := by
    rw [signature 54 (by decide), signature 82 (by decide)]
    rcases bootable.fat with fat | fat <;> simp [fat]
  exact if_neg named

theorem mount_bootable {c : Card} (stack : Nat → Byte) (bootable : Bootable c) :
    Mounted c (fatGetpartition (staticVolume c stack)).2 := by
  have field : ∀ n offset, offset + n ≤ 512 →
      word n (recorded c stack).biosPartitionBlock.get offset = word n (bootRecord c) offset :=
    fun n offset inside => word_congr fun i few => record_get c (by omega)
  have sector : word 2 (recorded c stack).biosPartitionBlock.get 11 = bootSector c :=
    field 2 11 (by decide)
  have root : u32 (u32 ((recorded c stack).spf32 * (recorded c stack).nf + (recorded c stack).rsc) +
      (recorded c stack).partitionlba) = rootSector c := by
    unfold Volume.spf32 Volume.nf Volume.rsc
    rw [field 4 36 (by decide), field 1 16 (by decide), field 2 14 (by decide)]
    rfl
  unfold fatGetpartition
  rw [readBootRecord_bootable stack bootable]
  dsimp only
  rw [Bool.not_true, if_neg Bool.false_ne_true, sector, root]
  by_cases usual : bootSector c = 512
  · rw [if_neg (not_not.mpr usual)]
    refine ⟨rfl, fun i inside => record_get c inside, rfl, rfl, ?_, ?_, ?_⟩
    · dsimp only
      rw [read_card]
      rfl
    · dsimp only
      rw [read_card]
      rfl
    · dsimp only
      rw [read_card, mountIssued, if_pos usual]
      rfl
  · rw [if_pos usual]
    refine ⟨rfl, fun i inside => record_get c inside, rfl, rfl, rfl, rfl, ?_⟩
    rw [mountIssued, if_neg usual]
    rfl

theorem mount_given_up {s : Volume} (refused : (readBootRecord s).1 = false) :
    (fatGetpartition s).2.bytesPerSector = s.bytesPerSector := by
  have same : (readBootRecord s).2.bytesPerSector = s.bytesPerSector := by
    unfold readBootRecord
    dsimp only
    split_ifs <;> rfl
  unfold fatGetpartition
  dsimp only
  rw [refused]
  exact same

theorem mount_named {s : Volume} (read : (readBootRecord s).1 = true) :
    (fatGetpartition s).2.bytesPerSector =
      word 2 (readBootRecord s).2.biosPartitionBlock.get 11 := by
  unfold fatGetpartition
  dsimp only
  rw [read, Bool.not_true, if_neg Bool.false_ne_true]
  split_ifs <;> rfl

/-- Anything else leaves the sector size at zero. -/
theorem bootable_of_mount {c : Card} (stack : Nat → Byte)
    (some : (fatGetpartition (staticVolume c stack)).2.bytesPerSector ≠ 0) : Bootable c := by
  have went : (readBootRecord (staticVolume c stack)).1 = true := by
    by_contra refused
    exact some (mount_given_up (Bool.not_eq_true _ ▸ refused))
  rw [mount_named went] at some
  cases table : c.fault c.issued with
  | some k =>
    -- the record is then taken from a buffer that nothing was read into
    have card : (staticVolume c stack).card = c := rfl
    unfold readBootRecord at some
    dsimp only at some
    rw [card, read_failed table, if_pos rfl] at some
    exact absurd rfl some
  | none =>
    rw [readBootRecord_table stack table] at went some
    by_cases magic : c.bytes 510 ≠ 0x55 ∨ c.bytes 511 ≠ 0xAA
    · rw [if_pos magic] at went
      cases went
    by_cases type : c.bytes 0x1C2 ≠ 0xB ∧ c.bytes 0x1C2 ≠ 0xC
    · rw [if_neg magic, if_pos type] at went
      cases went
    rw [if_neg magic, if_neg type] at went some
    cases record : c.fault (c.issued + 1) with
    | some k =>
      have failed : (sdTransferblock { c with issued := c.issued + 1 } (word 4 c.bytes 0x1C6)
          (static 512) 1 .sdReadblock).1 = 0 := read_failed record _ _ _
      dsimp only at went
      rw [failed, if_pos rfl] at went
      cases went
    | none =>
      have second := read_good (c := { c with issued := c.issued + 1 }) record
        (word 4 c.bytes 0x1C6) (static 512) Nat.one_pos (by decide : 1 < 2 ^ 32)
      rw [second] at went some
      dsimp only at went some
      rw [if_neg (by decide), Nat.one_mul] at went some
      have signature : ∀ offset ≤ 500, isFat ((static 512).put 0
          (fun i => c.bytes (u32 (word 4 c.bytes 0x1C6) * 512 + i)) 512).get offset =
            isFat (bootRecord c) offset :=
        fun offset inside => isFat_congr fun i few => record_get c (by omega)
      have sector : word 2 ((static 512).put 0
          (fun i => c.bytes (u32 (word 4 c.bytes 0x1C6) * 512 + i)) 512).get 11 = bootSector c :=
        word_congr fun i few => record_get c (by omega)
      rw [signature 54 (by decide), signature 82 (by decide)] at went some
      by_cases fat : (!isFat (bootRecord c) 54 && !isFat (bootRecord c) 82) = true
      · rw [if_pos fat] at went
        cases went
      · rw [if_neg fat] at some
        refine ⟨table, ?_, ?_, record, ?_, ?_⟩
        · simpa using magic
        · by_contra other
          exact type (not_or.mp other)
        · by_contra none
          exact fat (by simpa using none)
        · rw [← sector]
          exact some

end Fat
