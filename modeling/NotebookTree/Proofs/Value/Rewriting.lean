import NotebookTree.Fault
import NotebookTree.Proofs.Sequence
import NotebookTree.Proofs.Value.Tree

/-!
# Rewriting trees

## Main definitions

* `rewriteWithin`: a tree with some of its nodes replaced, from below.
-/

namespace NotebookTree

/-- A tree whose children are rewritten. -/
def rewriteBelow (rewrite : Value → Except Fault Value) (v : Value) : Except Fault Value :=
  match v.children? with
  | some children => return v.withChildren (← children.mapM rewrite)
  | none => return v

/-- A tree in which nodes are replaced, the children of a node first. A node for which there is
nothing to put in its place stays. -/
def rewriteWithin (f : Value → Except Fault (Option Value)) : Nat → Value → Except Fault Value
  | 0, _ => .error .tooDeep
  | limit + 1, v => do
    let v ← rewriteBelow (rewriteWithin f limit) v
    return (← f v).getD v

/-- A node with children is rewritten after its children are. -/
theorem rewriteWithin_branch {f : Value → Except Fault (Option Value)} {k : Kind}
    {before after : Entries Value} (hbefore : before.has "children" = false)
    (hafter : after.has "children" = false) (limit : Nat) (children : List Value) :
    rewriteWithin f (limit + 1) (.node k (before ++ ("children", .list children) :: after)) = (do
      let others ← children.mapM (rewriteWithin f limit)
      let v := Value.node k (before ++ ("children", .list others) :: after)
      return (← f v).getD v) := by
  rw [rewriteWithin, rewriteBelow, Value.children?_branch hbefore]
  dsimp only
  cases children.mapM (rewriteWithin f limit) with
  | error e => rfl
  | ok others =>
    rw [Except.ok_bind, Value.withChildren_branch hbefore hafter]
    rfl

/-- A node without children is rewritten by itself. -/
theorem rewriteWithin_leaf {f : Value → Except Fault (Option Value)} {v : Value}
    (h : v.children? = none) (limit : Nat) :
    rewriteWithin f (limit + 1) v = (do return (← f v).getD v) := by
  rw [rewriteWithin, rewriteBelow, h]
  rfl

/-- A tree stays as it is when there is nothing to put in the place of any of its nodes. -/
theorem rewriteWithin_eq_self {f : Value → Except Fault (Option Value)} {v : Value} (h : IsTree v)
    (hnone : ∀ n, Below n v → f n = .ok none) :
    ∀ {limit : Nat}, v.levels ≤ limit → rewriteWithin f limit v = .ok v := by
  induction h with
  | @leaf k fields hk hfields =>
    intro limit hlimit
    rw [Value.levels] at hlimit
    obtain ⟨limit, rfl⟩ : ∃ n, limit = n + 1 := ⟨limit - 1, by omega⟩
    rw [rewriteWithin_leaf (Value.children?_of_childless hfields), hnone _ .root]
    rfl
  | @branch k before after children hk hbefore hafter _ ih =>
    intro limit hlimit
    rw [Value.levels] at hlimit
    obtain ⟨limit, rfl⟩ : ∃ n, limit = n + 1 := ⟨limit - 1, by omega⟩
    -- each child stays, since its nodes are nodes of the whole and it is less deep
    have hstay : children.mapM (rewriteWithin f limit) = .ok children := by
      refine Except.mapM_eq_self fun c hc => ih c hc (fun n hn => hnone n (.child ?_ hn)) ?_
      · rwa [Value.children?_branch hbefore]
      · have hle := levels_le_levelsOfAll hc
        have hall := levelsOfAll_le_levelsOfFields children after before
        omega
    rw [rewriteWithin_branch hbefore hafter, hstay, Except.ok_bind]
    dsimp only
    rw [hnone _ .root]
    rfl

end NotebookTree
