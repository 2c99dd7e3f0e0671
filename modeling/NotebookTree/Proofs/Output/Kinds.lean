import NotebookTree.Output.Bundle
import NotebookTree.Proofs.Sequence

/-!
# Widgets, plots and images

An output is asked for widgets, plots and images by one test each, and the category of a type is that
of the first of several tests that holds. The two agree because no type passes two of these three
tests. Plots and widgets share the beginning of their names, but no widget begins like a plot; images
begin in another way than both.

## Main definitions

* `Mime.Test.kinds`: the tests for widgets, plots and images.

## Main statements

* `Mime.Test.eq_of_kinds`: a type passes one of them at most.
* `kinds_of_bundle`: what an output answers, and the categories of the types that it offers.
-/

namespace NotebookTree

namespace Mime

/-- The tests for what has a category of its own before all else, in the order in which they are
made. -/
def Test.kinds : List Test := [.widget, .visualization, .image]

variable {t : String}

/-! ## How the types begin -/

/-- A text begins as what stands in front of it does. -/
theorem head?_of_isPrefixOf {s : String} {c : Char} (hs : s.toList.head? = some c)
    (h : s.toList.isPrefixOf t.toList = true) : t.toList.head? = some c := by
  obtain ⟨rest, hrest⟩ := List.isPrefixOf_iff_prefix.mp h
  rw [← hrest, List.head?_append, hs, Option.some_or]

/-- The types of widgets begin with the letter of application. -/
theorem head?_of_isWidget (h : isWidget t = true) : t.toList.head? = some 'a' := by
  have hall : ∀ s ∈ widgetContent, s.toList.head? = some 'a' := by decide
  exact hall t (List.contains_iff_mem.mp h)

/-- So do the types of visualizations. -/
theorem head?_of_isVisualization (h : isVisualization t = true) : t.toList.head? = some 'a' := by
  have hall : ∀ s ∈ visualizationStarts, s.toList.head? = some 'a' := by decide
  obtain ⟨s, hs, hstart⟩ := List.any_eq_true.mp h
  exact head?_of_isPrefixOf (hall s hs) hstart

/-- The types of images begin with the letter of image. -/
theorem head?_of_isImage (h : isImage t = true) : t.toList.head? = some 'i' := by
  have hall : ∀ s ∈ imageContent, s.toList.head? = some 'i' := by decide
  rcases (Bool.or_eq_true _ _).mp h with hlisted | hstart
  · exact hall t (List.contains_iff_mem.mp hlisted)
  · exact head?_of_isPrefixOf (by decide) hstart

/-! ## The tests exclude each other -/

/-- No type is one of a widget and of a visualization. -/
theorem isVisualization_of_isWidget (h : isWidget t = true) : isVisualization t = false := by
  have hall : ∀ s ∈ widgetContent, isVisualization s = false := by decide
  exact hall t (List.contains_iff_mem.mp h)

/-- What begins with the letter of application is no type of an image. -/
theorem isImage_of_head? (h : t.toList.head? = some 'a') : isImage t = false := by
  cases himage : isImage t with
  | false => rfl
  | true =>
    have hhead := head?_of_isImage himage
    rw [h] at hhead
    exact absurd hhead (by decide)

/-- A type passes at most one of the tests for widgets, plots and images. -/
theorem Test.eq_of_kinds {a b : Test} (ha : a ∈ kinds) (hb : b ∈ kinds) (hat : a.ofType t = true)
    (hbt : b.ofType t = true) : a = b := by
  have hwidget : isWidget t = true → isVisualization t = false ∧ isImage t = false := fun h =>
    ⟨isVisualization_of_isWidget h, isImage_of_head? (head?_of_isWidget h)⟩
  have hvisualization : isVisualization t = true → isImage t = false := fun h =>
    isImage_of_head? (head?_of_isVisualization h)
  simp only [kinds, List.mem_cons, List.not_mem_nil, or_false] at ha hb
  -- the three tests are taken in pairs
  rcases ha with rfl | rfl | rfl
  · obtain ⟨hplot, himage⟩ := hwidget hat
    rcases hb with rfl | rfl | rfl
    · rfl
    · exact absurd hbt (Bool.eq_false_iff.mp hplot)
    · exact absurd hbt (Bool.eq_false_iff.mp himage)
  · have himage := hvisualization hat
    rcases hb with rfl | rfl | rfl
    · exact absurd hat (Bool.eq_false_iff.mp (hwidget hbt).1)
    · rfl
    · exact absurd hbt (Bool.eq_false_iff.mp himage)
  · rcases hb with rfl | rfl | rfl
    · exact absurd hat (Bool.eq_false_iff.mp (hwidget hbt).2)
    · exact absurd hat (Bool.eq_false_iff.mp (hvisualization hbt))
    · rfl

/-- Of tests of which at most one holds, the same is found in any order. -/
theorem find?_eq_of_perm {α : Type} {p : α → Bool} {as bs : List α} (hperm : bs.Perm as)
    (hone : ∀ a ∈ as, ∀ b ∈ as, p a = true → p b = true → a = b) : bs.find? p = as.find? p := by
  cases hbs : bs.find? p with
  | none =>
    rw [eq_comm, List.find?_eq_none]
    intro a ha
    exact List.find?_eq_none.mp hbs a (hperm.mem_iff.mpr ha)
  | some b =>
    have hb : b ∈ as := hperm.mem_iff.mp (List.mem_of_find?_eq_some hbs)
    have hpb := List.find?_some hbs
    obtain ⟨a, has⟩ := Option.isSome_iff_exists.mp (List.find?_isSome.mpr ⟨b, hb, hpb⟩)
    rw [has, hone a (List.mem_of_find?_eq_some has) b hb (List.find?_some has) hpb]

/-! ## Categories -/

/-- The category of widgets is that of the types for them. -/
theorem category_eq_widget_iff : category t = .widget ↔ isWidget t = true := by
  unfold category
  split <;> grind

/-- The category of visualizations is that of the types for them. -/
theorem category_eq_visualization_iff : category t = .visualization ↔ isVisualization t = true := by
  have hwidget := @isVisualization_of_isWidget t
  unfold category
  split <;> grind

/-- The category of images is that of the types for them. -/
theorem category_eq_image_iff : category t = .image ↔ isImage t = true := by
  have hwidget := fun h => isImage_of_head? (@head?_of_isWidget t h)
  have hvisualization := fun h => isImage_of_head? (@head?_of_isVisualization t h)
  unfold category
  split <;> grind

end Mime

namespace Output

variable {v : Value} {es : Entries Value}

/-- A test goes through the types of a bundle. -/
theorem someHolds_text (test : Mime.Test) (ts : List String) :
    someHolds test (ts.map .text) = .ok (ts.any test.ofType) := by
  induction ts with
  | nil => rfl
  | cons t ts ih =>
    rw [List.map_cons, someHolds, Mime.Test.holds, Except.ok_bind, List.any_cons]
    cases test.ofType t with
    | true => rfl
    | false => exact ih

/-- An output has something of a kind if it offers a type of its category. -/
theorem hasKindOf_of_bundle {test : Mime.Test} {c : Mime.Category} (hrich : isRich v = true)
    (hbundle : v.field "data" = .ok (.record es))
    (htest : ∀ t, Mime.category t = c ↔ test.ofType t = true) :
    hasKindOf test v = .ok (decide (∃ e ∈ es, Mime.category e.1 = c)) := by
  have hitems : (Value.record es).items = .ok ((es.map Prod.fst).map .text) := by
    rw [List.map_map]
    rfl
  rw [hasKindOf, if_pos hrich, hbundle, Except.ok_bind, hitems, Except.ok_bind, someHolds_text,
    Except.ok.injEq, Bool.eq_iff_iff, decide_eq_true_iff, List.any_map, List.any_eq_true]
  exact exists_congr fun e => and_congr_right fun _ => (htest e.1).symm

/-- An output with a bundle has an image, a widget or a plot if one of the types that it offers has
that category. No type passes two of the tests that these answers are made of, so whichever is made
first, the same one is found. -/
theorem kinds_of_bundle (hrich : isRich v = true) (hbundle : v.field "data" = .ok (.record es)) :
    hasImage v = .ok (decide (∃ e ∈ es, Mime.category e.1 = .image)) ∧
      hasWidget v = .ok (decide (∃ e ∈ es, Mime.category e.1 = .widget)) ∧
      hasVisualization v = .ok (decide (∃ e ∈ es, Mime.category e.1 = .visualization)) ∧
      ∀ t : String,
        (∀ a ∈ Mime.Test.kinds, ∀ b ∈ Mime.Test.kinds,
          a.ofType t = true → b.ofType t = true → a = b) ∧
        ∀ order : List Mime.Test, order.Perm Mime.Test.kinds →
          order.find? (·.ofType t) = Mime.Test.kinds.find? (·.ofType t) := by
  refine ⟨?_, ?_, ?_, fun t => ?_⟩
  · exact hasKindOf_of_bundle hrich hbundle fun _ => Mime.category_eq_image_iff
  · exact hasKindOf_of_bundle hrich hbundle fun _ => Mime.category_eq_widget_iff
  · exact hasKindOf_of_bundle hrich hbundle fun _ => Mime.category_eq_visualization_iff
  · have hone : ∀ a ∈ Mime.Test.kinds, ∀ b ∈ Mime.Test.kinds,
        a.ofType t = true → b.ofType t = true → a = b := fun a ha b hb =>
      Mime.Test.eq_of_kinds ha hb
    exact ⟨hone, fun order horder => Mime.find?_eq_of_perm horder hone⟩

/-- The bundle of a drawing, which is text too, and of the data of a plot. -/
def drawnBundle : Entries Value :=
  [("image/svg+xml", .text "<svg/>"), ("application/vnd.vegalite.v5+json", .record [])]

/-- A display with this bundle. -/
def drawnPlot : Value :=
  .node .displayData
    [("data", .record drawnBundle), ("metadata", .null), ("position", .null)]

/-- A plot with an image offers both, and no widget. -/
theorem kinds_of_bundle_sample :
    isRich drawnPlot = true ∧ drawnPlot.field "data" = .ok (.record drawnBundle) ∧
      hasImage drawnPlot = .ok true ∧ hasWidget drawnPlot = .ok false ∧
      hasVisualization drawnPlot = .ok true := by
  have hrich : isRich drawnPlot = true := by decide
  have hdata : drawnPlot.field "data" = .ok (.record drawnBundle) := rfl
  obtain ⟨himage, hwidget, hvisualization, -⟩ := kinds_of_bundle hrich hdata
  refine ⟨hrich, hdata, himage.trans ?_, hwidget.trans ?_, hvisualization.trans ?_⟩
  · exact congrArg Except.ok (by decide)
  · exact congrArg Except.ok (by decide)
  · exact congrArg Except.ok (by decide)

end Output

end NotebookTree
