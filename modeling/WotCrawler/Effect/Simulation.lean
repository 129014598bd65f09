import Mathlib

/-! Refinement between two transition systems by what an observer sees of their runs, and a simulation
in which the image of a state may depend on a choice that the state leaves open. -/

namespace WotCrawler.Effect

variable {State Image View Choice : Type}

/-- A run from a state that shows an observer these views, in this order, at moments of its choice. -/
inductive Shows (step : State → State → Prop) (view : State → View) (start : State) : List View → State → Prop where
  | start : Shows step view start [] start
  | step (shows : Shows step view start seen state) (moved : step state after) : Shows step view start seen after
  | look (shows : Shows step view start seen state) : Shows step view start (seen ++ [view state]) state

namespace Shows

variable {step : State → State → Prop} {view : State → View} {start state after : State} {seen : List View}

theorem steps (shows : Shows step view start seen state) (run : Relation.ReflTransGen step state after) :
    Shows step view start seen after := by
  induction run with
  | refl => exact shows
  | tail _ step ih => exact ih.step step

end Shows

/-- The images of a state, one for each choice that it leaves open. What a step decides was open before
it, so a step maps the image of one open choice to that of each choice it leaves. -/
structure Simulates (step : State → State → Prop) (view : State → View) (imageStep : Image → Image → Prop)
    (imageView : Image → View) (sound : State → Prop) (leaves : State → Choice → Prop)
    (mirrors : State → Choice → Image → Prop) : Prop where
  views : ∀ {state choice image}, mirrors state choice image → imageView image = view state
  inhabited : ∀ state, ∃ choice, leaves state choice
  keeps : ∀ {state after}, sound state → step state after → sound after
  steps : ∀ {state after choice}, sound state → step state after → leaves after choice →
    ∃ earlier, leaves state earlier ∧ ∀ image, mirrors state earlier image →
      ∃ later, Relation.ReflTransGen imageStep image later ∧ mirrors after choice later

namespace Simulates

variable {step : State → State → Prop} {view : State → View} {imageStep : Image → Image → Prop}
  {imageView : Image → View} {sound : State → Prop} {leaves : State → Choice → Prop}
  {mirrors : State → Choice → Image → Prop} {start state : State} {base : Image} {seen : List View}

/-- Whatever a run shows, a run of the images shows, and ends in an image for every choice left open. -/
theorem shows (simulates : Simulates step view imageStep imageView sound leaves mirrors) (init : sound start)
    (mirrored : ∀ choice, leaves start choice → mirrors start choice base) (run : Shows step view start seen state) :
    sound state ∧ ∀ choice, leaves state choice →
      ∃ image, Shows imageStep imageView base seen image ∧ mirrors state choice image := by
  induction run with
  | start => exact ⟨init, fun choice left => ⟨base, .start, mirrored choice left⟩⟩
  | step _ step ih =>
    refine ⟨simulates.keeps ih.1 step, ?_⟩
    intro choice left
    obtain ⟨earlier, before, matched⟩ := simulates.steps ih.1 step left
    obtain ⟨image, shown, mirror⟩ := ih.2 earlier before
    obtain ⟨later, moved, kept⟩ := matched image mirror
    exact ⟨later, shown.steps moved, kept⟩
  | look _ ih =>
    refine ⟨ih.1, ?_⟩
    intro choice left
    obtain ⟨image, shown, mirror⟩ := ih.2 choice left
    exact ⟨image, simulates.views mirror ▸ shown.look, mirror⟩

/-- So what the one system shows, the other does. -/
theorem refines (simulates : Simulates step view imageStep imageView sound leaves mirrors) (init : sound start)
    (mirrored : ∀ choice, leaves start choice → mirrors start choice base) (run : Shows step view start seen state) :
    ∃ choice image, leaves state choice ∧ Shows imageStep imageView base seen image ∧ mirrors state choice image := by
  obtain ⟨choice, left⟩ := simulates.inhabited state
  obtain ⟨image, shown, mirror⟩ := (simulates.shows init mirrored run).2 choice left
  exact ⟨choice, image, left, shown, mirror⟩

end Simulates

end WotCrawler.Effect
