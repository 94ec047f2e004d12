import MaldOS.Exceptions.Vectors

/-!
What the entries at EL2 do to its stack: when they call C it is where it was.
-/
namespace Exceptions
open Aarch64 Words

theorem moved_ite {n : Int} {rs : List SysReg} {p : Prop} [Decidable p] {s t u : Cpu}
    (yes : Moved n rs s t) (no : Moved n rs s u) : Moved n rs s (if p then t else u) := by
  split_ifs
  · exact yes
  · exact no

theorem ststAsmEl2_moved (s : Cpu) : Moved 32 [] s (ststAsmEl2 s) := by
  obtain ⟨t, stored⟩ : ∃ t, t = s.run ststAsmEl2Stores := ⟨_, rfl⟩
  have stores : Moved 32 [] s t := by
    rw [stored]
    exact run_moves (by simp [ststAsmEl2Stores]) rfl rfl
  obtain ⟨u, tested⟩ : ∃ u, u = t.run [.mrs 1 .spsrEl1, .and 1 1 7, .cmp 1 0] := ⟨_, rfl⟩
  have test : Moved 0 [] t u := by
    rw [tested]
    exact run_moves (by simp) rfl rfl
  obtain ⟨v, chosen⟩ : ∃ v, v = if u.zero then u.run [.mrs 1 .spEl0] else u.run [.mrs 1 .spEl1] :=
    ⟨_, rfl⟩
  have pointer : Moved 0 [] u v := by
    rw [chosen]
    exact moved_ite (run_moves (by simp) rfl rfl) (run_moves (by simp) rfl rfl)
  have last : Moved 0 [] v (v.run [.mrs 2 .elrEl1, .mrs 3 .ttbr0El1, .mrs 4 .spsrEl1,
    .str 1 (.pre (.x 5) 8), .str 2 (.pre (.x 5) 8), .str 3 (.pre (.x 5) 8),
    .str 4 (.pre (.x 5) 8)]) := run_moves (by simp) rfl rfl
  unfold ststAsmEl2
  dsimp only
  rw [← stored, ← tested, ← chosen]
  exact ((stores.trans test).trans pointer).trans last

theorem storeOldarea_moved (s : Cpu) (offset link : Word) :
    Moved 64 [] s (storeOldarea offset link s) := by
  unfold storeOldarea
  have pops : Moved 32 [] s (s.run [.mrs 5 .mpidrEl1, .and 5 5 3, .movImm 1 exceptionOldarea,
    .add 1 1 offset, .movImm 2 coreOffset, .madd 1 2 5 1, .mov (.x 5) (.x 1),
    .ldp 2 3 (.post .sp 16), .ldp 0 1 (.post .sp 16), .bl link]) := run_moves (by simp) rfl rfl
  exact pops.trans (ststAsmEl2_moved _)

theorem syncronousExceptionEl2_moved {s : Cpu} (link : Word)
    (called : (syncronousExceptionEl2 link s).1 ≠ .hang) :
    Moved 0 [] s (syncronousExceptionEl2 link s).2 := by
  obtain ⟨t, pushed⟩ : ∃ t, t = s.run [.stp 29 30 (.pre .sp (-16)), .str 5 (.pre .sp (-16)),
    .stp 0 1 (.pre .sp (-16)), .stp 2 3 (.pre .sp (-16)), .mrs 1 .esrEl2, .lsr 0 1 26,
    .cmp 0 ecHvc] := ⟨_, rfl⟩
  have pushes : Moved (-64) [] s t := by
    rw [pushed]
    exact run_moves (by simp) rfl rfl
  unfold syncronousExceptionEl2 at called ⊢
  rw [← pushed] at called ⊢
  by_cases hypervisor : t.zero
  · simp only [hypervisor, ↓reduceIte] at called ⊢
    obtain ⟨u, tested⟩ : ∃ u, u = t.run [.mrs 1 .esrEl2, .and 1 1 0xFF, .cmp 1 0, .mrs 1 .esrEl1,
      .lsr 0 1 26, .cmp 0 ecSvc] := ⟨_, rfl⟩
    have test : Moved 0 [] t u := by
      rw [tested]
      exact run_moves (by simp) rfl rfl
    have both := pushes.trans test
    rw [← tested]
    split_ifs
    · exact both.trans (storeOldarea_moved _ _ _)
    · have mask : Moved 0 [] u (u.run [.and 1 1 0x1FFFFFF]) := run_moves (by simp) rfl rfl
      exact (both.trans mask).trans (storeOldarea_moved _ _ _)
  · simp [hypervisor] at called

/-- The state in the body of a C function with a frame of that size. -/
def inFrame (frame : Word) (s : Cpu) : Cpu := s.setSys s.level.sp (s.sp - frame)

end Exceptions
