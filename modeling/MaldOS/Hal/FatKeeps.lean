import MaldOS.Hal.FatRead

/-!
Reading changes nothing on a volume: whatever is read, the volume stays mounted
with the same contents, and its cache stays right.
-/
namespace Fat
open Arch ByteMemory Slices Sd

def Keeps (s s' : Volume) : Prop := Ready s → Ready s' ∧ Alike s s'

theorem keeps_refl (s : Volume) : Keeps s s := fun ready => ⟨ready, alike_refl s⟩

theorem keeps_trans {s s' s'' : Volume} (first : Keeps s s') (second : Keeps s' s'') :
    Keeps s s'' := by
  intro ready
  obtain ⟨ready', alike⟩ := first ready
  obtain ⟨ready'', alike'⟩ := second ready'
  exact ⟨ready'', alike_trans alike alike'⟩

theorem read_card (c : Card) (lba : Nat) (buffer : Buffer Byte) (num : Nat) :
    (sdTransferblock c lba buffer num .sdReadblock).2.2 = { c with issued := c.issued + 1 } := by
  unfold sdTransferblock
  cases outcome c (if u32 num < 1 then 1 else u32 num)
  rfl

theorem keeps_read (s : Volume) (rootDir buffer : Buffer Byte) :
    Keeps s { s with
      card := { s.card with issued := s.card.issued + 1 }, rootDir := rootDir, buffer := buffer } := by
  intro ready
  refine ⟨⟨ready.sector, ready.cached, ?_⟩, ⟨rfl, rfl, rfl⟩⟩
  exact sound_later ready.sound rfl (Nat.le_succ _)

theorem keeps_buffer (s : Volume) (buffer : Buffer Byte) : Keeps s { s with buffer := buffer } :=
  fun ready => ⟨⟨ready.sector, ready.cached, ready.sound⟩, ⟨rfl, rfl, rfl⟩⟩

theorem keeps_lookup (s : Volume) (index : Nat) : Keeps s (fatGetTableEntry s index).2 := by
  intro ready
  obtain ⟨ready', alike, _⟩ := lookup_ready ready index
  exact ⟨ready', alike⟩

theorem keeps_transfer (s : Volume) (data : Buffer Byte) (left cluster : Nat) :
    Keeps s (transferLoop s data .sdReadblock left cluster).2.2 := by
  induction left generalizing s cluster with
  | zero =>
    unfold transferLoop
    by_cases inside : 1 < cluster ∧ cluster < 0xFFF8
    · rw [if_pos inside]
      dsimp only
      rw [read_card]
      exact keeps_read s s.rootDir s.buffer
    · rw [if_neg inside]
      exact keeps_refl s
  | succ left ih =>
    unfold transferLoop
    by_cases inside : 1 < cluster ∧ cluster < 0xFFF8
    · rw [if_pos inside]
      exact keeps_trans (keeps_lookup s cluster) (ih _ _)
    · rw [if_neg inside]
      exact keeps_refl s

theorem keeps_readLoop (cluster fuel : Nat) {s s' : Volume} {data data' : Nat → Byte}
    {clusterNum start index length n : Nat}
    (done : readLoop cluster fuel s data clusterNum start index length = some (n, data', s')) :
    Keeps s s' := by
  induction fuel generalizing s data clusterNum start index length with
  | zero => cases done
  | succ fuel ih =>
    unfold readLoop at done
    by_cases more : length > 0
    · rw [if_pos more] at done
      have moved := keeps_transfer s s.buffer clusterNum cluster
      unfold fatTransferfile at done
      generalize transferLoop s s.buffer .sdReadblock clusterNum cluster = result at done moved
      obtain ⟨size, buffer, t⟩ := result
      dsimp only at done moved
      by_cases none : size ≤ 0
      · rw [if_pos none] at done
        cases done
        exact keeps_trans moved (keeps_buffer t buffer)
      · rw [if_neg none] at done
        exact keeps_trans moved (keeps_trans (keeps_buffer t _) (ih done))
    · rw [if_neg more] at done
      cases done
      exact keeps_refl _

theorem keeps_readfile {s : Volume} {cluster seek length : Nat} {data : Nat → Byte}
    {r : Int × (Nat → Byte) × Volume} (done : fatReadfile s cluster data seek length = some r) :
    Keeps s r.2.2 := by
  obtain ⟨⟨index, data', s'⟩, loop, rfl⟩ := Option.map_eq_some_iff.mp done
  exact keeps_readLoop _ _ loop

theorem keeps_getcluster (s : Volume) (fn : List Byte) : Keeps s (fatGetcluster s fn).2 := by
  unfold fatGetcluster
  dsimp only
  rw [read_card]
  split_ifs <;> exact keeps_read s _ s.buffer

theorem keeps_listdirectory {s s' : Volume} (done : fatListdirectory s = some s') : Keeps s s' := by
  unfold fatListdirectory at done
  dsimp only at done
  rw [read_card] at done
  by_cases failed : (sdTransferblock s.card s.rootDirectorySector s.rootDir
      (s.nr * 32 / s.bytesPerSector + 1) .sdReadblock).1 = 0
  · rw [if_pos failed] at done
    cases done
    exact keeps_read s _ s.buffer
  · rw [if_neg failed] at done
    obtain ⟨listed, _, rfl⟩ := Option.map_eq_some_iff.mp done
    exact keeps_read s _ s.buffer

/-- What can be read of a file that ends is no longer than the file. -/
theorem reach_linked {s : Volume} (cs : List Nat) {ds : List Nat} (linked : Linked s cs)
    (leads : Leads s ds) (same : ds.getD 0 0 = cs.getD 0 0) : reach s ds ≤ cs.length := by
  induction cs generalizing ds with
  | nil => exact absurd linked id
  | cons c cs ih =>
    cases ds with
    | nil => exact Nat.zero_le _
    | cons e ds =>
      have here : e = c := same
      subst here
      have onward : reach s ds ≤ cs.length := by
        cases ds with
        | nil => exact Nat.zero_le _
        | cons d ds =>
          cases cs with
          | nil =>
            have mark : 0x0FFFFFF8 ≤ d := leads.1 ▸ linked
            rw [reach, if_neg (by omega)]
            exact Nat.zero_le _
          | cons c cs => exact ih linked.2 leads.2 (leads.1.symm.trans linked.1)
      rw [reach, List.length_cons]
      split_ifs <;> omega

end Fat
