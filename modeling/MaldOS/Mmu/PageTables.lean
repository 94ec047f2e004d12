import MaldOS.Library.Vmsa
import MaldOS.Library.Words

/-!
`init_page_tables` of `mmu.c`, and what the translation tables it leaves in
memory map. Pointers are physical addresses, so they have 48 bits.
-/
namespace Mmu
open ByteMemory Words Vmsa

inductive ApbitsType where
  | noEl0
  | noLimit
  | noWriteELnNoEl0
  | noWriteELn

def ApbitsType.value : ApbitsType → BitVec 2
  | .noEl0 => 0
  | .noLimit => 1
  | .noWriteELnNoEl0 => 2
  | .noWriteELn => 3

/-- `VMSAv8_64_NEXTLEVEL_DESCRIPTOR`, from the lowest bit on -/
structure NextlevelDescriptor where
  entryType : BitVec 2 := 0
  reserved2 : BitVec 10 := 0
  address : BitVec 36 := 0
  reserved48 : BitVec 11 := 0
  pxnTable : BitVec 1 := 0
  xnTable : BitVec 1 := 0
  apTable : BitVec 2 := 0
  nsTable : BitVec 1 := 0

def NextlevelDescriptor.raw64 (d : NextlevelDescriptor) : Descriptor :=
  d.nsTable ++ d.apTable ++ d.xnTable ++ d.pxnTable ++ d.reserved48 ++ d.address ++ d.reserved2 ++
    d.entryType

/-- `VMSAv8_64_STAGE1_BLOCK_DESCRIPTOR`, from the lowest bit on -/
structure Stage1BlockDescriptor where
  entryType : BitVec 2 := 0
  memAttr : BitVec 3 := 0
  ns : BitVec 1 := 0
  ap : BitVec 2 := 0
  sh : BitVec 2 := 0
  af : BitVec 1 := 0
  nG : BitVec 1 := 0
  address : BitVec 36 := 0
  reserved48 : BitVec 3 := 0
  dbm : BitVec 1 := 0
  contiguous : BitVec 1 := 0
  pxn : BitVec 1 := 0
  xn : BitVec 1 := 0
  reserved55 : BitVec 9 := 0

def Stage1BlockDescriptor.raw64 (d : Stage1BlockDescriptor) : Descriptor :=
  d.reserved55 ++ d.xn ++ d.pxn ++ d.contiguous ++ d.dbm ++ d.reserved48 ++ d.address ++ d.nG ++
    d.af ++ d.sh ++ d.ap ++ d.ns ++ d.memAttr ++ d.entryType

abbrev shInnerShareable : BitVec 2 := 3
abbrev mtDeviceNgnrneIndex : Nat := 0
abbrev mtDeviceNgnreIndex : Nat := 1
abbrev mtDeviceGreIndex : Nat := 2
abbrev mtNormalNcIndex : Nat := 3
abbrev mtNormalIndex : Nat := 4
abbrev mtDeviceNgnrne : BitVec 64 := 0x00
abbrev mtDeviceNgnre : BitVec 64 := 0x04
abbrev mtDeviceGre : BitVec 64 := 0x0C
abbrev mtNormalNc : BitVec 64 := 0x44
abbrev mtNormal : BitVec 64 := 0xFF
abbrev nonglobal : BitVec 1 := 1

/-- The value that `initMMU` gives `mair_el1`. -/
def mairEl1 : BitVec 64 :=
  mtDeviceNgnrne <<< (mtDeviceNgnrneIndex * 8) ||| mtDeviceNgnre <<< (mtDeviceNgnreIndex * 8) |||
    mtDeviceGre <<< (mtDeviceGreIndex * 8) ||| mtNormalNc <<< (mtNormalNcIndex * 8) |||
    mtNormal <<< (mtNormalIndex * 8)

/-- `&table[k]` -/
def slot (table : Address) (k : Nat) : Address := table + BitVec.ofNat 48 (8 * k)

/-- `(uintptr_t)base << (21 - 12)` in a field of 36 bits -/
def blockAddress (base : Nat) : BitVec 36 := (BitVec.ofNat 64 base <<< (21 - 12)).setWidth 36

/-- `(uintptr_t)table >> 12` in a field of 36 bits -/
def tableAddress (table : Address) : BitVec 36 := (table.setWidth 64 >>> 12).setWidth 36

/-- `for (; base < bound; base++)` with one descriptor stored a round -/
def fill (table : Address) (entry : Nat → Descriptor) (bound base : Nat) (m : Memory 48) :
    Nat × Memory 48 :=
  if base < bound then
    fill table entry bound (base + 1) (storeWords m (slot table base) [entry base])
  else (base, m)
termination_by bound - base

def ramBlock (permission : ApbitsType) (base : Nat) : Stage1BlockDescriptor where
  address := blockAddress base
  af := 1
  nG := nonglobal
  ap := permission.value
  sh := shInnerShareable
  memAttr := BitVec.ofNat 3 mtNormalIndex
  entryType := 1

def vcBlock (permission : ApbitsType) (base : Nat) : Stage1BlockDescriptor where
  address := blockAddress base
  af := 1
  nG := nonglobal
  ap := permission.value
  memAttr := BitVec.ofNat 3 mtNormalNcIndex
  entryType := 1

/-- For the peripherals and for the mailboxes -/
def deviceBlock (base : Nat) : Stage1BlockDescriptor where
  address := blockAddress base
  af := 1
  nG := nonglobal
  ap := ApbitsType.noLimit.value
  memAttr := BitVec.ofNat 3 mtDeviceNgnrneIndex
  entryType := 1

def nextTable (table : Address) : NextlevelDescriptor where
  nsTable := 1
  address := tableAddress table
  entryType := 3

def initPageTables (level0 level1 : Address) (permission : ApbitsType) (m : Memory 48) :
    Memory 48 :=
  let (base, m) := fill level1 (fun base => (ramBlock permission base).raw64) 440 0 m
  let (base, m) := fill level1 (fun base => (vcBlock permission base).raw64) (512 - 8) base m
  let (_, m) := fill level1 (fun base => (deviceBlock base).raw64) 512 base m
  let m := storeWords m (slot level1 512) [(deviceBlock 512).raw64]
  let (_, m) := fill level1 (fun _ => 0) 1024 513 m
  let (_, m) := fill level0 (fun _ => 0) 512 0 m
  let m := storeWords m (slot level0 0) [(nextTable (slot level1 0)).raw64]
  storeWords m (slot level0 1) [(nextTable (slot level1 512)).raw64]

theorem word_kept {m : Memory 48} {a b : Address} (v : Descriptor) (apart : Apart a 8 b 8) :
    word (storeWords m b [v]) a = word m a :=
  (holds_singleton _ _ _).mp ((holds_apart apart).mpr ((holds_singleton _ _ _).mpr rfl))

theorem slots_apart (table : Address) {i k : Nat} (different : i ≠ k) (inside : i < 1024)
    (inside' : k < 1024) : Apart (slot table i) 8 (slot table k) 8 :=
  apart_offsets table (by omega) (by omega) (by omega)

theorem word_slot (m : Memory 48) (table : Address) (v : Descriptor) {i k : Nat} (inside : i < 1024)
    (inside' : k < 1024) : word (storeWords m (slot table k) [v]) (slot table i) =
      if i = k then v else word m (slot table i) := by
  by_cases here : i = k
  · subst here
    rw [if_pos rfl]
    exact (holds_singleton _ _ _).mp (holds_stored m _ (by rw [List.length_singleton]; decide))
  · rw [if_neg here, word_kept v (slots_apart table here inside inside')]

theorem fill_base (table : Address) (entry : Nat → Descriptor) {bound base : Nat} (m : Memory 48)
    (inside : base ≤ bound) : (fill table entry bound base m).1 = bound := by
  induction base, m using fill.induct table entry bound with
  | case1 base m more ih =>
    rw [fill, if_pos more]
    exact ih more
  | case2 base m done =>
    rw [fill, if_neg done]
    omega

theorem fill_entry (table : Address) (entry : Nat → Descriptor) {bound base : Nat} (m : Memory 48)
    (room : bound ≤ 1024) {i : Nat} (inside : i < 1024) :
    word (fill table entry bound base m).2 (slot table i) =
      if base ≤ i ∧ i < bound then entry i else word m (slot table i) := by
  induction base, m using fill.induct table entry bound with
  | case1 base m more ih =>
    rw [fill, if_pos more, ih, word_slot m table _ inside (by omega)]
    by_cases here : i = base
    · subst here
      rw [if_neg (by omega), if_pos rfl, if_pos (by omega)]
    · rw [if_neg here]
      exact if_congr (by omega) rfl rfl
  | case2 base m done => rw [fill, if_neg done, if_neg (by omega)]

theorem fill_kept (table : Address) (entry : Nat → Descriptor) {bound base : Nat} (m : Memory 48)
    {a : Address} (apart : ∀ k < bound, Apart a 8 (slot table k) 8) :
    word (fill table entry bound base m).2 a = word m a := by
  induction base, m using fill.induct table entry bound with
  | case1 base m more ih => rw [fill, if_pos more, ih, word_kept _ (apart base more)]
  | case2 base m done => rw [fill, if_neg done]

def blockEntry (permission : ApbitsType) (base : Nat) : Descriptor :=
  if base < 440 then (ramBlock permission base).raw64
  else if base < 504 then (vcBlock permission base).raw64
  else if base < 513 then (deviceBlock base).raw64
  else 0

def tableEntry (level1 : Address) (k : Nat) : Descriptor :=
  if k < 2 then (nextTable (slot level1 (512 * k))).raw64 else 0

theorem initPageTables_level0 (level0 level1 : Address) (permission : ApbitsType) (m : Memory 48)
    {k : Nat} (inside : k < 512) :
    word (initPageTables level0 level1 permission m) (slot level0 k) = tableEntry level1 k := by
  unfold initPageTables tableEntry
  dsimp only
  rw [word_slot _ _ _ (by omega) (by omega), word_slot _ _ _ (by omega) (by omega),
    fill_entry _ _ _ (by omega) (by omega)]
  by_cases second : k = 1
  · subst second
    rfl
  · by_cases first : k = 0
    · subst first
      rfl
    · rw [if_neg second, if_neg first, if_pos (by omega), if_neg (by omega)]

theorem initPageTables_level1 {level0 level1 : Address} (apart : Apart level1 8192 level0 4096)
    (permission : ApbitsType) (m : Memory 48) {i : Nat} (inside : i < 1024) :
    word (initPageTables level0 level1 permission m) (slot level1 i) = blockEntry permission i := by
  have away : ∀ k < 512, Apart (slot level1 i) 8 (slot level0 k) 8 :=
    fun k less => apart.sub (8 * i) (8 * k) 8 8 (by omega) (by omega)
  unfold initPageTables blockEntry
  dsimp only
  rw [word_kept _ (away 1 (by omega)), word_kept _ (away 0 (by omega)), fill_kept _ _ _ away,
    fill_entry _ _ _ (by omega) inside, word_slot _ _ _ inside (by omega)]
  simp only [fill_base _ _ _ (show 0 ≤ 440 by omega), fill_base _ _ _ (show 440 ≤ 512 - 8 by omega)]
  rw [fill_entry _ _ _ (by omega) inside, fill_entry _ _ _ (by omega) inside,
    fill_entry _ _ _ (by omega) inside]
  by_cases unused : 513 ≤ i
  · rw [if_pos (by omega), if_neg (by omega), if_neg (by omega), if_neg (by omega)]
  · rw [if_neg (by omega)]
    by_cases mailboxes : i = 512
    · subst mailboxes
      rfl
    · rw [if_neg mailboxes]
      by_cases peripherals : 512 - 8 ≤ i
      · rw [if_pos (by omega), if_neg (by omega), if_neg (by omega), if_pos (by omega)]
      · rw [if_neg (by omega)]
        by_cases vc : 440 ≤ i
        · rw [if_pos (by omega), if_neg (by omega), if_pos (by omega)]
        · rw [if_neg (by omega), if_pos (by omega), if_pos (by omega)]

section
variable (d : Stage1BlockDescriptor)

theorem block_entryType : bits d.raw64 0 2 = d.entryType.toNat := by
  unfold Stage1BlockDescriptor.raw64
  rw [bits_low _ _ (by decide), bits_whole]

theorem block_memAttr : bits d.raw64 2 3 = d.memAttr.toNat := by
  unfold Stage1BlockDescriptor.raw64
  rw [bits_high _ _ _ (by decide), bits_low _ _ (by decide), bits_whole]

theorem block_ap : bits d.raw64 6 2 = d.ap.toNat := by
  unfold Stage1BlockDescriptor.raw64
  simp (disch := decide) only [bits_high]
  rw [bits_low _ _ (by decide), bits_whole]

theorem block_af : bits d.raw64 10 1 = d.af.toNat := by
  unfold Stage1BlockDescriptor.raw64
  simp (disch := decide) only [bits_high]
  rw [bits_low _ _ (by decide), bits_whole]

theorem block_address : bits d.raw64 12 36 = d.address.toNat := by
  unfold Stage1BlockDescriptor.raw64
  simp (disch := decide) only [bits_high]
  rw [bits_low _ _ (by decide), bits_whole]

end

theorem nextTable_entryType (table : Address) : bits (nextTable table).raw64 0 2 = 3 := by
  unfold NextlevelDescriptor.raw64
  rw [bits_low _ _ (by decide), bits_whole]
  rfl

theorem nextTable_apTable (table : Address) : bits (nextTable table).raw64 61 2 = 0 := by
  unfold NextlevelDescriptor.raw64
  simp (disch := decide) only [bits_high]
  rw [bits_low _ _ (by decide), bits_whole]
  rfl

theorem tableAddress_toNat (table : Address) : (tableAddress table).toNat = table.toNat / 4096 := by
  have small := table.isLt
  unfold tableAddress
  rw [BitVec.toNat_setWidth, BitVec.toNat_ushiftRight, BitVec.toNat_setWidth,
    Nat.shiftRight_eq_div_pow]
  omega

theorem nextTable_address {table : Address} (aligned : table.toNat % 4096 = 0) :
    BitVec.ofNat 48 (bits (nextTable table).raw64 12 36 * 2 ^ 12) = table := by
  have field : bits (nextTable table).raw64 12 36 = table.toNat / 4096 := by
    unfold NextlevelDescriptor.raw64
    simp (disch := decide) only [bits_high]
    rw [bits_low _ _ (by decide), bits_whole]
    exact tableAddress_toNat table
  have small := table.isLt
  apply BitVec.eq_of_toNat_eq
  rw [field, BitVec.toNat_ofNat]
  omega

theorem blockAddress_toNat {base : Nat} (small : base < 1024) :
    (blockAddress base).toNat = base * 2 ^ 9 := by
  unfold blockAddress
  rw [BitVec.toNat_setWidth, BitVec.toNat_shiftLeft, BitVec.toNat_ofNat, Nat.shiftLeft_eq]
  omega

theorem leaf_block {d : Stage1BlockDescriptor} {base : Nat} (small : base < 1024)
    (address : d.address = blockAddress base) (accessed : d.af = 1) (va : BitVec 39) :
    leaf mairEl1 va ⟨true, true⟩ 1 d.raw64 = some
      ⟨base * 2 ^ 21 + bits va 0 21, memoryType (bits mairEl1 (8 * d.memAttr.toNat) 8),
        accessPermission d.ap.toNat⟩ := by
  have flag : ¬ bits d.raw64 10 1 = 0 := by
    rw [block_af, accessed]
    decide
  have output : bits d.raw64 21 27 = base := by
    rw [bits_shift d.raw64 12 9 27, block_address, address, blockAddress_toNat small,
      Nat.mul_div_cancel _ (by decide)]
  unfold leaf
  rw [if_neg flag, block_memAttr, block_ap, Rights.meet_all]
  exact congrArg (fun n => some (Translation.mk (n * 2 ^ 21 + bits va 0 21) _ _)) output

/-- An identity map: 880 MB of RAM, the VC's share up to 0x3F000000, then the devices. -/
def mapping (permission : ApbitsType) (va : Nat) : Option Translation :=
  let granted := accessPermission permission.value.toNat
  if va < 880 * 2 ^ 20 then some ⟨va, .normal, granted⟩
  else if va < 0x3F000000 then some ⟨va, .nonCacheable, granted⟩
  else if va < 0x40200000 then some ⟨va, .device, ⟨true, true⟩⟩
  else none

theorem walk_leaf {read : Address → Descriptor} {va : BitVec 39} {table : Address}
    {d : Stage1BlockDescriptor} {base : Nat}
    (entry : read (table + BitVec.ofNat 48 (8 * bits va 21 9)) = d.raw64) (small : base < 1024)
    (block : d.entryType = 1) (address : d.address = blockAddress base) (accessed : d.af = 1) :
    walk read mairEl1 va 1 table ⟨true, true⟩ = some
      ⟨base * 2 ^ 21 + bits va 0 21, memoryType (bits mairEl1 (8 * d.memAttr.toNat) 8),
        accessPermission d.ap.toNat⟩ := by
  have kind : bits d.raw64 0 2 = 1 := by
    rw [block_entryType, block]
    rfl
  rw [← leaf_block small address accessed va]
  exact @walk_block read mairEl1 va 0 table _ _ entry kind

theorem mair_types :
    memoryType (bits mairEl1 (8 * (BitVec.ofNat 3 mtNormalIndex).toNat) 8) = .normal ∧
      memoryType (bits mairEl1 (8 * (BitVec.ofNat 3 mtNormalNcIndex).toNat) 8) = .nonCacheable ∧
      memoryType (bits mairEl1 (8 * (BitVec.ofNat 3 mtDeviceNgnrneIndex).toNat) 8) = .device := by
  decide

theorem noLimit_rights : accessPermission ApbitsType.noLimit.value.toNat = ⟨true, true⟩ := by decide

/-- The three indices of an address and its offset in a block. -/
theorem va_split (va : BitVec 39) :
    va.toNat = (512 * bits va 30 9 + bits va 21 9) * 2 ^ 21 + bits va 0 21 := by
  have small := va.isLt
  unfold bits
  omega

theorem blockEntry_walk {read : Address → Descriptor} {va : BitVec 39} {table : Address}
    {permission : ApbitsType} (k : Nat) (high : bits va 30 9 = k) (low : k < 2)
    (entry : read (table + BitVec.ofNat 48 (8 * bits va 21 9)) =
      blockEntry permission (512 * k + bits va 21 9)) :
    walk read mairEl1 va 1 table ⟨true, true⟩ = mapping permission va.toNat := by
  have split := va_split va
  have offset := bits_lt va 0 21
  have index := bits_lt va 21 9
  obtain ⟨normal, nonCacheable, device⟩ := mair_types
  rw [high] at split
  generalize base_eq : 512 * k + bits va 21 9 = base at entry split
  have small : base < 1024 := by omega
  unfold mapping
  rw [split]
  unfold blockEntry at entry
  by_cases ram : base < 440
  · rw [if_pos ram] at entry
    rw [if_pos (by omega), walk_leaf entry small rfl rfl rfl, ← normal]
    rfl
  · rw [if_neg ram] at entry
    rw [if_neg (by omega)]
    by_cases vc : base < 504
    · rw [if_pos vc] at entry
      rw [if_pos (by omega), walk_leaf entry small rfl rfl rfl, ← nonCacheable]
      rfl
    · rw [if_neg vc] at entry
      rw [if_neg (by omega)]
      by_cases peripherals : base < 513
      · rw [if_pos peripherals] at entry
        rw [if_pos (by omega), walk_leaf entry small rfl rfl rfl, ← device,
          ← noLimit_rights]
        rfl
      · rw [if_neg peripherals] at entry
        rw [if_neg (by omega), @walk_invalid read mairEl1 va 1 table _ _ entry (by decide)]

theorem slot_slot (table : Address) (i j : Nat) :
    slot table i + BitVec.ofNat 48 (8 * j) = slot table (i + j) := by
  unfold slot
  rw [Nat.mul_add, BitVec.ofNat_add, BitVec.add_assoc]

theorem slot_aligned {table : Address} (aligned : table.toNat % 4096 = 0) (k : Nat) :
    (slot table (512 * k)).toNat % 4096 = 0 := by
  unfold slot
  rw [BitVec.toNat_add, BitVec.toNat_ofNat]
  omega

/-- Every address of 39 bits, from any content of the memory. -/
theorem initPageTables_maps {level0 level1 : Address} (aligned0 : level0.toNat % 4096 = 0)
    (aligned1 : level1.toNat % 4096 = 0) (apart : Apart level1 8192 level0 4096)
    (permission : ApbitsType) (m : Memory 48) (va : BitVec 39) :
    translateFrom (word (initPageTables level0 level1 permission m)) mairEl1 va
      (level0.setWidth 64) = mapping permission va.toNat := by
  have root : BitVec.ofNat 48 (bits (level0.setWidth 64) 12 36 * 2 ^ 12) = level0 := by
    have small := level0.isLt
    apply BitVec.eq_of_toNat_eq
    unfold bits
    rw [BitVec.toNat_ofNat, BitVec.toNat_setWidth]
    omega
  have entry := initPageTables_level0 level0 level1 permission m (bits_lt va 30 9)
  unfold translateFrom
  rw [root]
  unfold tableEntry at entry
  by_cases valid : bits va 30 9 < 2
  · rw [if_pos valid] at entry
    rw [@walk_table _ mairEl1 va 1 level0 _ _ entry (nextTable_entryType _),
      nextTable_address (slot_aligned aligned1 _), nextTable_apTable]
    have index := bits_lt va 21 9
    have block := initPageTables_level1 apart permission m
      (show 512 * bits va 30 9 + bits va 21 9 < 1024 by omega)
    rw [← slot_slot] at block
    exact blockEntry_walk _ rfl valid block
  · have split := va_split va
    rw [if_neg valid] at entry
    unfold mapping
    rw [@walk_invalid _ mairEl1 va 2 level0 _ _ entry (by decide), if_neg (by omega),
      if_neg (by omega), if_neg (by omega)]

theorem initPageTables_maps_uart :
    translateFrom (word (initPageTables 0x80000 0x81000 .noEl0 fun _ => 0xA5)) mairEl1 0x3F201000
      0x80000 = some ⟨0x3F201000, .device, ⟨true, true⟩⟩ := by
  have apart : Apart (0x81000 : Address) 8192 0x80000 4096 :=
    @apart_offsets 48 0x80000 0x1000 8192 0 4096 (by decide) (by decide) (by decide)
  exact initPageTables_maps (by decide) (by decide) apart .noEl0 _ 0x3F201000

end Mmu
