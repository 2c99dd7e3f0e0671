import NotebookTree.Proofs.Sequence
import NotebookTree.Terminal.Outline

/-!
# Outlines and their lines

An outline is made with a stack of open labels. What keeps the order of the lines is that closing a
label moves them from one label of the stack to the next and never past each other: read from the
outermost label inwards, the stack holds all lines taken so far (`taken`).

A line can be put below a label as long as some label is open above it. That is so if every line
behind the first lies at least one deep, and none more than one deeper than the line in front of it.
What is kept of a line when its label is made changes its text, but not where it stands.

## Main definitions

* `Outline.taken`: the lines that open labels hold.
* `Outline.Follows`: depths that lines may have when some labels are open.
* `Outline.kept`: a line with what is kept of its text.

## Main statements

* `openAt_of_follows`: what a line does to the open labels.
* `exists_ofLines`: lines with such depths have an outline, and are its lines but for what is not
  kept of them.
-/

namespace NotebookTree.Terminal.Outline

/-! ## Open labels -/

/-- The lines that open labels hold. A label lies as deep as there are labels around it, and the
outlines below it lie one deeper. -/
def taken : List Frame → List (Nat × String)
  | [] => []
  | f :: fs => taken fs ++ (fs.length, f.label) :: allToLines (fs.length + 1) f.below.reverse

/-- The lines of outlines are those of the first and those of the rest. -/
theorem allToLines_append (depth : Nat) (os more : List Outline) :
    allToLines depth (os ++ more) = allToLines depth os ++ allToLines depth more := by
  induction os with
  | nil => rfl
  | cons o os ih => rw [List.cons_append, allToLines, allToLines, ih, List.append_assoc]

/-- The lines of a closed frame are its label and those of what stands below it. -/
theorem toLines_close (depth : Nat) (f : Frame) :
    f.close.toLines depth = (depth, f.label) :: allToLines (depth + 1) f.below.reverse := by
  rw [Frame.close, toLines]

/-- The innermost label is closed without moving its lines. -/
theorem taken_add_close (f g : Frame) (fs : List Frame) :
    taken (g.add f.close :: fs) = taken (f :: g :: fs) := by
  have hlast : allToLines (fs.length + 1) [f.close] =
      (fs.length + 1, f.label) :: allToLines (fs.length + 2) f.below.reverse := by
    rw [allToLines, allToLines, List.append_nil, toLines_close]
  rw [taken, taken, taken, Frame.add, List.reverse_cons, allToLines_append, hlast,
    List.length_cons, List.append_assoc, List.cons_append]

/-- However many labels are closed, no line is moved. -/
theorem taken_closeTo (depth : Nat) (fs : List Frame) : taken (closeTo depth fs) = taken fs := by
  fun_induction closeTo depth fs with
  | case1 => rfl
  | case2 f g fs _ ih => exact ih.trans (taken_add_close f g fs)
  | case3 => rfl

/-- Closing down to a depth leaves as many frames open. -/
theorem length_closeTo {depth : Nat} {fs : List Frame} (hdepth : 0 < depth)
    (hfs : depth ≤ fs.length) : (closeTo depth fs).length = depth := by
  fun_induction closeTo depth fs with
  | case1 f g fs h =>
    simp only [List.length_cons] at h hfs ⊢
    omega
  | case2 f g fs h ih =>
    apply ih
    simp only [List.length_cons] at h hfs ⊢
    omega
  | case3 fs h =>
    -- at most one label is open
    rcases fs with _ | ⟨f, _ | ⟨g, fs⟩⟩
    · simp only [List.length_nil] at hfs ⊢
      omega
    · simp only [List.length_singleton] at hfs ⊢
      omega
    · exact absurd rfl (h f g fs)

/-! ## Lines -/

/-- Depths that lines may have when `count` labels are open. -/
def Follows (count : Nat) : List Nat → Prop
  | [] => True
  | d :: ds => 0 < d ∧ d ≤ count ∧ Follows (d + 1) ds

section Follows

variable {count more : Nat} {ds es : List Nat}

/-- With more labels open, the same depths may follow. -/
theorem Follows.mono (h : Follows count ds) (hle : count ≤ more) : Follows more ds := by
  cases ds with
  | nil => trivial
  | cons d ds => exact ⟨h.1, Nat.le_trans h.2.1 hle, h.2.2⟩

/-- Depths may follow behind others that leave enough labels open. -/
theorem Follows.append (h : Follows count ds) (hes : Follows more es) (hle : more ≤ count)
    (hds : ∀ d ∈ ds, more ≤ d + 1) : Follows count (ds ++ es) := by
  induction ds generalizing count with
  | nil => exact hes.mono hle
  | cons d ds ih =>
    obtain ⟨hd, hrest⟩ := List.forall_mem_cons.mp hds
    exact ⟨h.1, h.2.1, ih h.2.2 hd hrest⟩

end Follows

section Lines

variable {keep : String → String} {frames : List Frame} {line : Nat × String}
  {lines : List (Nat × String)}

/-- A line with what is kept of its text. -/
def kept (keep : String → String) (line : Nat × String) : Nat × String := (line.1, keep line.2)

/-- A line that is no root and leaves no gap is put behind the lines that were taken. The labels
open behind it are itself and as many others as it lies deep. -/
theorem openAt_of_follows (keep : String → String) (hpos : 0 < line.1)
    (hle : line.1 ≤ frames.length) :
    ∃ opened, openAt keep frames line = .ok opened ∧ opened.length = line.1 + 1 ∧
      taken opened = taken frames ++ [kept keep line] := by
  -- a line below the root finds the root open, so the stack is not empty
  obtain ⟨f, fs, rfl⟩ : ∃ f fs, frames = f :: fs := by
    refine List.exists_cons_of_ne_nil fun hnil => ?_
    rw [hnil, List.length_nil] at hle
    omega
  have hroot : ¬(line.1 == 0) = true := by
    rw [beq_iff_eq]
    omega
  have hlength := length_closeTo hpos hle
  refine ⟨⟨keep line.2, []⟩ :: closeTo line.1 (f :: fs), ?_, ?_, ?_⟩
  · rw [openAt, if_neg hroot]
    exact List.cons_ne_nil f fs
  · rw [List.length_cons, hlength]
  · rw [taken, taken_closeTo, hlength, List.reverse_nil, allToLines, kept]

/-- Lines are taken one after the other. -/
theorem exists_foldlM_openAt (hopen : 0 < frames.length)
    (h : Follows frames.length (lines.map Prod.fst)) :
    ∃ opened, lines.foldlM (openAt keep) frames = .ok opened ∧ 0 < opened.length ∧
      taken opened = taken frames ++ lines.map (kept keep) := by
  induction lines generalizing frames with
  | nil => exact ⟨frames, rfl, hopen, (List.append_nil _).symm⟩
  | cons line lines ih =>
    obtain ⟨hpos, hle, hrest⟩ := h
    obtain ⟨next, hnext, hlength, htaken⟩ := openAt_of_follows keep hpos hle
    -- behind a line as many labels are open as the depths that follow it allow
    rw [← hlength] at hrest
    obtain ⟨opened, hopened, hsome, hall⟩ := ih (by omega) hrest
    refine ⟨opened, ?_, hsome, ?_⟩
    · rw [List.foldlM_cons, hnext, Except.ok_bind, hopened]
    · rw [hall, htaken, List.append_assoc, List.singleton_append, List.map_cons]

/-- Lines of which only the first is a root, and none leaves a gap, have an outline. Its lines are
as many, as deep and in the same order, each with what is kept of its text. -/
theorem exists_ofLines {label : String} (keep : String → String)
    (h : Follows 1 (lines.map Prod.fst)) :
    ∃ o, ofLines keep ((0, label) :: lines) = .ok (some o) ∧
      o.toLines 0 = ((0, label) :: lines).map (kept keep) := by
  obtain ⟨opened, hopened, hsome, htaken⟩ :
      ∃ opened, lines.foldlM (openAt keep) [⟨keep label, []⟩] = .ok opened ∧ 0 < opened.length ∧
        taken opened = taken [⟨keep label, []⟩] ++ lines.map (kept keep) :=
    exists_foldlM_openAt Nat.one_pos h
  -- closing leaves the root, which then holds all lines
  obtain ⟨root, hroot⟩ : ∃ root, closeTo 1 opened = [root] :=
    List.length_eq_one_iff.mp (length_closeTo Nat.one_pos hsome)
  refine ⟨root.close, ?_, ?_⟩
  · rw [ofLines, List.foldlM_cons, openAt, Except.ok_bind, hopened, Except.ok_bind, hroot]
    rfl
  · have hlines : taken [root] = root.close.toLines 0 := by
      rw [taken, taken, toLines_close]
      rfl
    rw [← hlines, ← hroot, taken_closeTo, htaken]
    rfl

end Lines

end NotebookTree.Terminal.Outline
