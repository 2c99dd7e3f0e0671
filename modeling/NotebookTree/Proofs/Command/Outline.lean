import NotebookTree.Command.Run
import NotebookTree.Proofs.Terminal.Outline
import NotebookTree.Proofs.Walk.Listing

/-!
# The outline of a listing

A listing is shown plainly as its lines or drawn as an outline. Both show the same tree: as the
lines have their parents first, each behind the root is at most one deeper than the line in front of
it, and so the outline that is made of them has as many lines, as deep and in the same order. Of a
label the outline has what an engine keeps of it, which leaves out a few control characters.

## Main definitions

* `Walk.Line.shown`: a line as it is handed on to be shown.
* `Terminal.Engine.KeepsAllButControls`: what an engine keeps of a label.

## Main statements

* `listing_follows`: how deep the occurrences in a tree lie.
* `listing_outline`: the outline of a listing.
* `outline_lacks_bell`: an outline whose lines are not those it was made of.
-/

namespace NotebookTree

open Terminal (Outline)

/-! ## Depths -/

namespace Tree

/-- What stands below a node follows its label, child after child. -/
theorem follows_spotsBelow {reverse : Bool} {path : List Nat} {id : NodeId} {ks : List (Tree × Nat)}
    (h : ∀ k ∈ ks, Outline.Follows (path.length + 1)
      ((k.1.listing false reverse (path ++ [k.2]) (some (.node id))).map (·.path.length))) :
    Outline.Follows (path.length + 1)
      ((spotsBelow false reverse path id ks).map (·.path.length)) := by
  induction ks with
  | nil => trivial
  | cons k ks ih =>
    obtain ⟨hk, hks⟩ := List.forall_mem_cons.mp h
    rw [spotsBelow, List.flatMap_cons, ← spotsBelow, List.map_append]
    apply hk.append (ih hks) (Nat.le_refl _)
    -- the first child leaves the label of the node open
    intro d hd
    obtain ⟨p, hp, rfl⟩ := List.mem_map.mp hd
    have hway := (prefix_of_mem_listing hp).length_le
    rw [List.length_append, List.length_singleton] at hway
    omega

/-- In a tree the root comes first, and all others follow its label. -/
theorem listing_follows (reverse : Bool) (path : List Nat) (parent : Option Item) (t : Tree) :
    ∃ below, t.listing false reverse path parent = ⟨path, t, parent⟩ :: below ∧
      Outline.Follows (path.length + 1) (below.map (·.path.length)) := by
  induction t generalizing path parent with
  | leaf i => exact ⟨[], rfl, trivial⟩
  | branch id row ts ih =>
    refine ⟨_, listing_branch_first .., follows_spotsBelow fun k hk => ?_⟩
    have hmem : k.1 ∈ ts := List.fst_mem_of_mem_zipIdx (mem_inOrder.mp hk)
    obtain ⟨below, hlisting, hbelow⟩ := ih k.1 hmem (path ++ [k.2]) (some (.node id))
    rw [List.length_append, List.length_singleton] at hbelow
    rw [hlisting, List.map_cons, List.length_append, List.length_singleton]
    exact ⟨Nat.succ_pos _, Nat.le_refl _, hbelow⟩

end Tree

/-! ## Lines -/

namespace Walk

/-- A line as it is handed on to be shown. -/
def Line.shown (l : Line) : Nat × String := (l.depth, l.label.plainText)

/-- The lines of a tree have an outline. Its lines are these, with what is kept of their texts. -/
theorem exists_outline {s : Store} {t : Tree} {reverse : Bool} {ls : List Line}
    (keep : String → String) (h : linesOf s (t.preorder reverse) = .ok ls) :
    ∃ o, Outline.ofLines keep (ls.map Line.shown) = .ok (some o) ∧
      o.toLines 0 = (ls.map Line.shown).map (Outline.kept keep) := by
  obtain ⟨below, hlisting, hfollows⟩ := t.listing_follows reverse [] none
  rw [Tree.preorder, hlisting] at h
  cases forall₂_of_linesOf h with
  | @cons _ l _ rest hl hrest =>
    -- depths are told by the ways to the occurrences, whatever the labels
    have hdepths : below.map (·.path.length) = (rest.map Line.shown).map Prod.fst := by
      rw [List.map_map, ← List.forall₂_eq_eq_eq, List.forall₂_map_left_iff,
        List.forall₂_map_right_iff]
      exact hrest.imp fun _ _ hline => hline.1.symm
    have hroot : Line.shown l = (0, l.label.plainText) := by
      rw [Line.shown, hl.1]
      rfl
    rw [List.map_cons, hroot]
    apply Outline.exists_ofLines
    rw [← hdepths]
    exact hfollows

end Walk

/-! ## What is kept of labels -/

namespace Terminal

/-- What the class for texts, `Text`, documents: of a label all is kept but bell, backspace,
vertical tab, form feed and carriage return. -/
def Engine.KeepsAllButControls [Engine] : Prop :=
  ∀ label, Engine.keep label = String.ofList (dropControls label.toList)

/-- A text is kept as it is exactly if it has none of the controls that are dropped. -/
theorem ofList_dropControls_eq_iff (s : String) :
    String.ofList (dropControls s.toList) = s ↔
      ∀ c ∈ s.toList, c.toNat ∉ [7, 8, 11, 12, 13] := by
  have htext : String.ofList (dropControls s.toList) = s ↔ dropControls s.toList = s.toList := by
    rw [← String.toList_inj, String.toList_ofList]
  rw [htext, dropControls, List.filter_eq_self]
  refine forall₂_congr fun c _ => ?_
  rw [Bool.not_eq_true', List.contains_eq_mem, decide_eq_false_iff_not]

end Terminal

namespace Command

open Walk (outcome listing Line)

/-- The outline of lines has the lines again exactly if nothing is dropped from any of them. -/
theorem map_kept_eq_iff [Terminal.Engine] (hkeep : Terminal.Engine.KeepsAllButControls)
    (lines : List (Nat × String)) :
    lines.map (Outline.kept Terminal.Engine.keep) = lines ↔
      ∀ l ∈ lines, ∀ c ∈ l.2.toList, c.toNat ∉ [7, 8, 11, 12, 13] := by
  have hline : ∀ l : Nat × String, Outline.kept Terminal.Engine.keep l = l ↔
      ∀ c ∈ l.2.toList, c.toNat ∉ [7, 8, 11, 12, 13] := fun l => by
    rw [← Terminal.ofList_dropControls_eq_iff, ← hkeep, Outline.kept, Prod.ext_iff]
    exact and_iff_right rfl
  calc lines.map (Outline.kept Terminal.Engine.keep) = lines
      ↔ lines.map (Outline.kept Terminal.Engine.keep) = lines.map id := by rw [List.map_id]
    _ ↔ ∀ l ∈ lines, Outline.kept Terminal.Engine.keep l = l := List.map_inj_left
    _ ↔ _ := forall₂_congr fun l _ => hline l

/-- The listing of a tree ends in the fault of a node that has no label, or it has a line for each
occurrence. These lines have an outline, with lines as deep and in the same order, and with the
labels but for the controls that are dropped from them; so it has the lines again exactly if no
label has any. Plainly the lines are printed, drawn the outline, if there is an engine. -/
theorem listing_outline [Terminal.Engine] (hkeep : Terminal.Engine.KeepsAllButControls) {σ : Type}
    {t : Tree} {limit : Nat} {reverse : Bool} {s : Scene σ} (hlimit : t.height ≤ limit)
    (hstand : t.StandsIn s.store) :
    (∃ p ∈ t.preorder reverse, ∃ e, (s.store.view p.tree.item).label = .error e ∧
        outcome (listing limit t.item reverse) s = (.error e, s)) ∨
      ∃ ls o, outcome (listing limit t.item reverse) s = (.ok ls, s) ∧
        ls.length = (t.preorder reverse).length ∧
        Outline.ofLines Terminal.Engine.keep (ls.map Line.shown) = .ok (some o) ∧
        o.toLines 0 = (ls.map Line.shown).map (fun l =>
          (l.1, String.ofList (Terminal.dropControls l.2.toList))) ∧
        (o.toLines 0 = ls.map Line.shown ↔
          ∀ l ∈ ls.map Line.shown, ∀ c ∈ l.2.toList, c.toNat ∉ [7, 8, 11, 12, 13]) ∧
        ∀ width, listingText width false (ls.map Line.shown) =
            .ok (unlines ((ls.map Line.shown).map indented)) ∧
          listingText width true (ls.map Line.shown) =
            if Terminal.Engine.installed then Terminal.Engine.printOutline width o
            else .ok (unlines ((ls.map Line.shown).map indented)) := by
  have hrun := Walk.outcome_listing hlimit hstand reverse
  obtain ⟨ls, hls, -⟩ | ⟨before, p, after, e, hsplit, -, hp, hfault⟩ :=
    Except.mapM_cases (Spot.line s.store) (t.preorder reverse)
  · obtain ⟨o, houtline, hlines⟩ := Walk.exists_outline Terminal.Engine.keep hls
    have hlength := (Walk.forall₂_of_linesOf hls).length_eq
    refine .inr ⟨ls, o, ?_, hlength.symm, houtline, ?_, ?_, fun width => ⟨rfl, ?_⟩⟩
    · rw [hrun]
      exact congrArg (·, s) hls
    · rw [hlines]
      exact List.map_congr_left fun l _ => congrArg (Prod.mk l.1) (hkeep l.2)
    · rw [hlines]
      exact map_kept_eq_iff hkeep _
    · -- without an engine, drawing falls back on the plain lines
      cases hinstalled : Terminal.Engine.installed with
      | true =>
        rw [listingText, hinstalled, houtline]
        rfl
      | false =>
        rw [listingText, hinstalled]
        rfl
  · have hmem : p ∈ t.preorder reverse := hsplit ▸ List.mem_append_right _ List.mem_cons_self
    refine .inl ⟨p, hmem, e, ?_, ?_⟩
    · rcases Except.bind_eq_error.mp hp with hlabel | ⟨label, -, hlast⟩
      · exact hlabel
      · cases hlast
    · rw [hrun]
      exact congrArg (·, s) hfault

/-- The root whose second child stands below its first child too is drawn with both, from the last
child on. The engine for lines leaves its labels as they are. -/
theorem listing_outline_sample :
    Terminal.Engine.KeepsAllButControls ∧ Walk.sharingTree.height ≤ 4 ∧
      Walk.sharingTree.StandsIn Walk.sharing ∧
      ∃ ls o, outcome (listing 4 Walk.sharingTree.item true) ⟨Walk.sharing, [], ()⟩ =
          (.ok ls, ⟨Walk.sharing, [], ()⟩) ∧
        Outline.ofLines Terminal.lineEngine.keep (ls.map Line.shown) = .ok (some o) ∧
        o.toLines 0 = (ls.map Line.shown).map (fun l =>
          (l.1, String.ofList (Terminal.dropControls l.2.toList))) ∧
        ls.length = 6 := by
  have hkeep : Terminal.Engine.KeepsAllButControls := fun _ => rfl
  have hheight : Walk.sharingTree.height ≤ 4 := by decide
  refine ⟨hkeep, hheight, Walk.sharingTree_standsIn, ?_⟩
  rcases @listing_outline _ hkeep Unit Walk.sharingTree 4 true ⟨Walk.sharing, [], ()⟩ hheight
    Walk.sharingTree_standsIn with ⟨p, hp, e, he, -⟩ | ⟨ls, o, hrun, hlength, houtline, hlines, -⟩
  · -- every occurrence has a label
    simp only [Walk.sharingTree, Tree.preorder, Tree.listing, Tree.listingAll, if_true,
      Bool.false_eq_true, if_false, List.nil_append, List.mem_cons, List.mem_append,
      List.not_mem_nil, or_false] at hp
    rcases hp with rfl | ((rfl | rfl) | rfl | rfl | rfl) <;> cases he
  · exact ⟨ls, o, hrun, houtline, hlines, hlength.trans (by decide)⟩

/-- A node for an error whose text rings the bell. -/
def ringing : Store where
  nodes := #[⟨.error, [("ename", .plain (.text "E")), ("evalue", .plain (.text "a\x07b")),
    ("traceback", .plain (.list []))]⟩]
  rows := #[]

/-- The outline of that node does not have its line: the bell is not kept in the label. -/
theorem outline_lacks_bell :
    (Tree.leaf (.node ⟨0⟩)).StandsIn ringing ∧
      ∃ ls o, outcome (listing 1 (.node ⟨0⟩) false) ⟨ringing, [], ()⟩ =
          (.ok ls, ⟨ringing, [], ()⟩) ∧
        Outline.ofLines Terminal.lineEngine.keep (ls.map Line.shown) = .ok (some o) ∧
        ls.map Line.shown = [(0, "error E: a\x07b")] ∧ o.toLines 0 = [(0, "error E: ab")] := by
  have houtline : Outline.ofLines Terminal.lineEngine.keep [(0, "error E: a\x07b")] =
      .ok (some (.node "error E: ab" [])) := by
    rw [Outline.ofLines, List.foldlM_cons, Outline.openAt, Except.ok_bind, List.foldlM_nil]
    show Except.ok ((Outline.closeTo 1 [_]).head?.map Outline.Frame.close) = _
    rw [Outline.closeTo]
    · rfl
    · intro _ _ _ hframes
      cases hframes
  exact ⟨⟨⟨_, rfl⟩, rfl⟩, [⟨0, .text "error E: a\x07b"⟩], _, rfl, houtline, rfl, rfl⟩

end Command

end NotebookTree
