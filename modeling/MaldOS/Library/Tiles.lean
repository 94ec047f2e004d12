import Mathlib.Logic.Function.Basic
import Mathlib.Tactic.SplitIfs

/-!
A canvas that is painted tile by tile. The tiles have no place in common, so each
shows what was last painted on it, whatever was painted elsewhere since.
-/
namespace Tiles

variable {Tile Ink Place Colour : Type}

/-- Where the tiles are, and what a tile with some ink on it looks like. -/
structure Design (Tile Ink Place Colour : Type) where
  covers : Tile → Place → Prop
  look : Tile → Ink → Place → Colour

structure Paints (d : Design Tile Ink Place Colour) (k : Tile) (a : Ink)
    (canvas canvas' : Place → Colour) : Prop where
  inside : ∀ p, d.covers k p → canvas' p = d.look k a p
  outside : ∀ p, ¬ d.covers k p → canvas' p = canvas p

/-- The canvas has on it what the board says, over what was there before. -/
structure Shows (d : Design Tile Ink Place Colour) (ground : Place → Colour)
    (board : Tile → Option Ink) (canvas : Place → Colour) : Prop where
  painted : ∀ k a, board k = some a → ∀ p, d.covers k p → canvas p = d.look k a p
  spared : ∀ p, (∀ k, board k ≠ none → ¬ d.covers k p) → canvas p = ground p

def blank : Tile → Option Ink := fun _ => none

theorem shows_blank (d : Design Tile Ink Place Colour) (ground : Place → Colour) :
    Shows d ground blank ground := by
  constructor
  · intro k a painted
    cases painted
  · exact fun _ _ => rfl

variable [DecidableEq Tile]

def last (strokes : List (Tile × Ink)) : Tile → Option Ink :=
  strokes.foldl (fun board s => Function.update board s.1 (some s.2)) blank

theorem stroke_of_last {strokes : List (Tile × Ink)} {k : Tile}
    (painted : last strokes k ≠ none) : ∃ s ∈ strokes, s.1 = k := by
  have each : ∀ (strokes : List (Tile × Ink)) (board : Tile → Option Ink),
      (strokes.foldl (fun board s => Function.update board s.1 (some s.2)) board :
        Tile → Option Ink) k ≠ none → board k ≠ none ∨ ∃ s ∈ strokes, s.1 = k := by
    intro strokes
    induction strokes with
    | nil => exact fun _ painted => Or.inl painted
    | cons s strokes ih =>
      intro board painted
      rcases ih _ painted with before | ⟨t, member, own⟩
      · by_cases own : s.1 = k
        · exact Or.inr ⟨s, List.mem_cons_self, own⟩
        · dsimp only at before
          rw [Function.update_of_ne (Ne.symm own)] at before
          exact Or.inl before
      · exact Or.inr ⟨t, List.mem_cons_of_mem s member, own⟩
  exact (each strokes blank painted).resolve_left fun wrong => wrong rfl

theorem shows_paint {d : Design Tile Ink Place Colour} {used : Tile → Prop}
    (apart : ∀ k l p, used k → used l → d.covers k p → d.covers l p → k = l)
    {ground canvas canvas' : Place → Colour} {board : Tile → Option Ink} {k : Tile} {a : Ink}
    (tile : used k) (all : ∀ l, board l ≠ none → used l) (shows : Shows d ground board canvas)
    (paints : Paints d k a canvas canvas') :
    Shows d ground (Function.update board k (some a)) canvas' := by
  constructor
  · intro l b painted p inside
    by_cases own : l = k
    · subst own
      rw [Function.update_self] at painted
      cases painted
      exact paints.inside p inside
    · rw [Function.update_of_ne own] at painted
      have other : ¬ d.covers k p := by
        intro covers
        exact own (apart l k p (all l (by simp [painted])) tile inside covers)
      rw [paints.outside p other]
      exact shows.painted l b painted p inside
  · intro p spared
    have other : ¬ d.covers k p := spared k (by simp)
    rw [paints.outside p other]
    apply shows.spared
    intro l painted
    by_cases own : l = k
    · rw [own]
      exact other
    · exact spared l (by rwa [Function.update_of_ne own])

/-- After any strokes each tile shows the last one on it, and the rest is as it was. -/
theorem shows_last {d : Design Tile Ink Place Colour} {used : Tile → Prop}
    (apart : ∀ k l p, used k → used l → d.covers k p → d.covers l p → k = l)
    {paint : (Place → Colour) → Tile × Ink → Place → Colour} {strokes : List (Tile × Ink)}
    (paints : ∀ s ∈ strokes, used s.1 ∧ ∀ canvas, Paints d s.1 s.2 canvas (paint canvas s))
    (ground : Place → Colour) :
    Shows d ground (last strokes) (strokes.foldl paint ground) := by
  have each : ∀ (strokes : List (Tile × Ink)) (board : Tile → Option Ink)
      (canvas : Place → Colour),
      (∀ s ∈ strokes, used s.1 ∧ ∀ canvas, Paints d s.1 s.2 canvas (paint canvas s)) →
      (∀ l, board l ≠ none → used l) → Shows d ground board canvas →
      Shows d ground (strokes.foldl (fun board s => Function.update board s.1 (some s.2)) board)
        (strokes.foldl paint canvas) := by
    intro strokes
    induction strokes with
    | nil => exact fun _ _ _ _ shows => shows
    | cons s strokes ih =>
      intro board canvas paints all shows
      obtain ⟨tile, painted⟩ := paints s List.mem_cons_self
      refine ih _ _ (fun t member => paints t (List.mem_cons_of_mem s member)) ?_
        (shows_paint apart tile all shows (painted canvas))
      intro l there
      by_cases own : l = s.1
      · rw [own]
        exact tile
      · dsimp only at there
        rw [Function.update_of_ne own] at there
        exact all l there
  exact each strokes blank ground paints (fun _ wrong => absurd rfl wrong) (shows_blank d ground)

end Tiles
