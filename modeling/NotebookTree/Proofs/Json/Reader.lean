import NotebookTree.Files
import NotebookTree.Json.Reader
import NotebookTree.Proofs.Sequence

/-!
# What reading JSON comes to

A carriage return and a line feed are both blanks between lexemes, both end a number or word, and
fit nowhere else. So a text is cut into the same lexemes whatever ends its lines, up to the same
place where none fits, and reads as the same value or ends in the same fault.

A text that has no value is not JSON, or has an integer of too many digits. On a stack with room for
so many open brackets it comes to the same, unless more of them are open somewhere: as the text is
taken from its front, they are a fault even where something behind them is no JSON.

## Main definitions

* `LosesHalf`: a text with half a pair of units, which is no character.

## Main results

* `read_unifyLineEnds`: the value of a text whose line ends have been unified.
* `isReadFault_of_read`: what keeps a text from having a value.
* `readWithin_eq_read`, `readWithin_eq_tooDeep_iff`: what there is no room for on a stack.
-/

namespace NotebookTree.Json

/-! ## Line ends -/

/-- The cutting machine takes a carriage return as it takes a line feed. -/
theorem lexStep_return (s : LexState) : lexStep s '\r' = lexStep s '\n' := by
  cases s <;> rfl

/-- Where a line feed fits, the machine is between lexemes behind it. -/
theorem eq_between_of_lexStep_feed {s s' : LexState} {ls : List Lexeme}
    (h : lexStep s '\n' = some (ls, s')) : s' = .between := by
  cases s with
  | between => exact (Prod.mk.inj (Option.some.inj h)).2.symm
  | scalar done => exact (Prod.mk.inj (Option.some.inj h)).2.symm
  | text done => cases h
  | escape done => cases h
  | digits done high left value => cases h
  | pair done high => cases h
  | pairEscape done high => cases h

/-- A text is cut by a step of the machine for its first character. -/
theorem lexFrom_cons (cut : List Lexeme) (s : LexState) (c : Char) (cs : List Char) :
    lexFrom cut s (c :: cs) = match lexStep s c with
      | none => cut.reverse ++ s.ending ++ [.broken]
      | some (ls, s') => lexFrom (ls.reverse ++ cut) s' cs := by
  cases s <;> rfl

/-- A line feed behind a carriage return makes no difference. -/
theorem lexFrom_return_feed (cut : List Lexeme) (s : LexState) (cs : List Char) :
    lexFrom cut s ('\r' :: '\n' :: cs) = lexFrom cut s ('\n' :: cs) := by
  rw [lexFrom_cons, lexFrom_cons, lexStep_return]
  cases hstep : lexStep s '\n' with
  | none => rfl
  | some step =>
    obtain ⟨ls, s'⟩ := step
    obtain rfl := eq_between_of_lexStep_feed hstep
    exact lexFrom_cons _ _ _ _

/-- A text is cut into the same lexemes whatever ends its lines. -/
theorem lexFrom_unifyLineEnds (cs : List Char) : ∀ (cut : List Lexeme) (s : LexState),
    lexFrom cut s (unifyLineEnds cs) = lexFrom cut s cs := by
  induction cs using unifyLineEnds.induct with
  | case1 => exact fun _ _ => rfl
  | case2 cs ih =>
    intro cut s
    rw [unifyLineEnds, lexFrom_return_feed, lexFrom_cons, lexFrom_cons]
    -- the lexer takes a return and a feed as it takes the feed alone
    cases lexStep s '\n' with
    | none => rfl
    | some step => exact ih _ _
  | case3 c cs hpair ih =>
    intro cut s
    have hstep : lexStep s (if c == '\r' then '\n' else c) = lexStep s c := by
      split
      · rename_i hc
        rw [beq_iff_eq.mp hc, lexStep_return]
      · rfl
    rw [unifyLineEnds, lexFrom_cons, lexFrom_cons, hstep]
    · cases lexStep s c with
      | none => rfl
      | some step => exact ih _ _
    · exact hpair

/-- A text reads as the same value, or ends in the same fault, whatever ends its lines. -/
theorem read_unifyLineEnds (cs : List Char) : read (unifyLineEnds cs) = read cs := by
  rw [read, read, lexFrom_unifyLineEnds]

/-! ## Faults -/

/-- The faults that reading may end in. -/
def IsReadFault (e : Fault) : Prop := e = .notJson ∨ ∃ count, e = tooManyDigits count

/-- An integer is refused for its length alone. -/
theorem isReadFault_readInteger {negative : Bool} {digits : List Char} {e : Fault}
    (h : readInteger negative digits = .error e) : IsReadFault e := by
  unfold readInteger at h
  split at h
  · exact .inr ⟨_, (Except.error.inj h).symm⟩
  · cases h

/-- A float is refused as reading refuses. -/
theorem isReadFault_readDouble {negative : Bool} {whole places : List Char}
    {exponent : Option Int} {e : Fault}
    (h : readDouble negative whole places exponent = .error e) : IsReadFault e := by
  cases exponent with
  | some n => cases h
  | none => exact .inl (Except.error.inj h).symm

/-- A number without a sign is refused as reading refuses. -/
theorem isReadFault_readMagnitude {negative : Bool} {cs : List Char} {e : Fault}
    (h : readMagnitude negative cs = .error e) : IsReadFault e := by
  simp only [readMagnitude] at h
  split at h
  · exact .inl (Except.error.inj h).symm
  split at h
  · exact isReadFault_readInteger h
  · split at h
    · exact .inl (Except.error.inj h).symm
    · exact isReadFault_readDouble h
  · exact isReadFault_readDouble h

/-- A word or number is refused as reading refuses. -/
theorem isReadFault_readScalar {cs : List Char} {e : Fault} (h : readScalar cs = .error e) :
    IsReadFault e := by
  unfold readScalar at h
  split at h
  · cases h
  · split at h <;> exact isReadFault_readMagnitude h

/-- What begins no value is refused as reading refuses. -/
theorem isReadFault_startValue {stack : List Frame} {l : Lexeme} {e : Fault}
    (h : startValue stack l = .error e) : IsReadFault e := by
  unfold startValue at h
  split at h
  case h_2 cs =>
    cases hcs : readScalar cs with
    | ok v => rw [hcs] at h; cases h
    | error e' =>
      rw [hcs] at h
      exact Except.error.inj h ▸ isReadFault_readScalar hcs
  case h_5 => exact .inl (Except.error.inj h).symm
  all_goals cases h

/-- One lexeme is refused as reading refuses. -/
theorem isReadFault_build {state : State} {l : Lexeme} {e : Fault}
    (h : build state l = .error e) : IsReadFault e := by
  unfold build at h
  split at h
  case h_1 => exact isReadFault_startValue h
  case h_3 => exact isReadFault_startValue h
  case h_12 => exact .inl (Except.error.inj h).symm
  all_goals cases h

/-- Lexemes are refused as reading refuses. -/
theorem isReadFault_foldlM_build {ls : List Lexeme} {e : Fault} :
    ∀ {state : State}, ls.foldlM build state = .error e → IsReadFault e := by
  induction ls with
  | nil => intro _ h; cases h
  | cons l ls ih =>
    intro state h
    rw [List.foldlM_cons] at h
    cases hl : build state l with
    | ok next => rw [hl] at h; exact ih h
    | error e' =>
      rw [hl] at h
      exact Except.error.inj h ▸ isReadFault_build hl

/-- A text that has no value is not JSON, or has an integer of too many digits. -/
theorem isReadFault_of_read {cs : List Char} {e : Fault} (h : read cs = .error e) :
    IsReadFault e := by
  unfold read at h
  cases hfold : (lexFrom [] .between cs).foldlM build ([], .value) with
  | ok state =>
    rw [hfold] at h
    simp only [Except.ok_bind] at h
    split at h
    · cases h
    · exact .inl (Except.error.inj h).symm
  | error e' =>
    rw [hfold] at h
    exact Except.error.inj h ▸ isReadFault_foldlM_build hfold

/-- No fault of reading is about the stack. -/
theorem IsReadFault.ne_tooDeep {e : Fault} (h : IsReadFault e) : e ≠ .tooDeep := by
  rcases h with rfl | ⟨count, rfl⟩ <;> exact nofun

/-! ## Room on the stack -/

section Within

variable {nesting : Nat} {state : State} {ls : List Lexeme} {cs : List Char}

/-- A lexeme opens a bracket too many, or there is room for what it leads to. -/
theorem buildWithin_of_ok {l : Lexeme} {next : State} (h : build state l = .ok next) :
    buildWithin nesting state l =
      if nesting < next.1.length then .error .tooDeep else .ok next := by
  rw [buildWithin, h, Except.ok_bind]
  split <;> rfl

/-- Lexemes are put together as without a stack, unless there is no room on it. -/
theorem foldlM_buildWithin_cases (nesting : Nat) : ∀ (state : State) (ls : List Lexeme),
    ls.foldlM (buildWithin nesting) state = .error .tooDeep ∨
      ls.foldlM (buildWithin nesting) state = ls.foldlM build state
  | _, [] => .inr rfl
  | state, l :: ls => by
    rw [List.foldlM_cons, List.foldlM_cons]
    cases hl : build state l with
    | error e =>
      rw [buildWithin, hl]
      exact .inr rfl
    | ok next =>
      rw [buildWithin_of_ok hl]
      split
      · exact .inl rfl
      · exact foldlM_buildWithin_cases nesting next ls

/-- There is no room exactly if some lexemes at the front leave too many brackets open. -/
theorem foldlM_buildWithin_eq_tooDeep_iff (hroom : state.1.length ≤ nesting) :
    ls.foldlM (buildWithin nesting) state = .error .tooDeep ↔
      ∃ front rest last, ls = front ++ rest ∧ front.foldlM build state = .ok last ∧
        nesting < last.1.length := by
  induction ls generalizing state with
  | nil =>
    refine ⟨nofun, fun ⟨front, rest, last, hsplit, hlast, hdeep⟩ => ?_⟩
    obtain ⟨rfl, -⟩ := List.append_eq_nil_iff.mp hsplit.symm
    obtain rfl := Except.ok.inj hlast
    omega
  | cons l ls ih =>
    -- no lexemes at all leave the brackets open that there is room for
    have hcons : (∃ front rest last, l :: ls = front ++ rest ∧ front.foldlM build state = .ok last ∧
          nesting < last.1.length) ↔
        ∃ next front rest last, build state l = .ok next ∧ ls = front ++ rest ∧
          front.foldlM build next = .ok last ∧ nesting < last.1.length := by
      constructor
      · rintro ⟨_ | ⟨l', front⟩, rest, last, hsplit, hlast, hdeep⟩
        · obtain rfl := Except.ok.inj hlast
          omega
        · obtain ⟨rfl, hls⟩ := List.cons.inj (hsplit : l :: ls = l' :: (front ++ rest))
          rw [List.foldlM_cons] at hlast
          obtain ⟨next, hnext, hlast⟩ := Except.bind_eq_ok.mp hlast
          exact ⟨next, front, rest, last, hnext, hls, hlast, hdeep⟩
      · rintro ⟨next, front, rest, last, hnext, rfl, hlast, hdeep⟩
        refine ⟨l :: front, rest, last, rfl, ?_, hdeep⟩
        rw [List.foldlM_cons, hnext, Except.ok_bind, hlast]
    rw [hcons, List.foldlM_cons]
    cases hl : build state l with
    | error e =>
      rw [buildWithin, hl]
      refine ⟨fun h => ?_, fun ⟨_, _, _, _, hnext, _⟩ => nomatch hnext⟩
      exact absurd (Except.error.inj h) (isReadFault_build hl).ne_tooDeep
    | ok next =>
      rw [buildWithin_of_ok hl]
      split
      · exact ⟨fun _ => ⟨next, [], ls, next, rfl, rfl, rfl, ‹_›⟩, fun _ => rfl⟩
      · rw [Except.ok_bind, ih (Nat.not_lt.mp ‹_›)]
        refine ⟨fun ⟨front, rest, last, h⟩ => ⟨next, front, rest, last, rfl, h⟩, ?_⟩
        rintro ⟨_, front, rest, last, hnext, h⟩
        obtain rfl := Except.ok.inj hnext
        exact ⟨front, rest, last, h⟩

/-- A text comes to the same on a stack that has room for it. -/
theorem readWithin_eq_read (h : readWithin nesting cs ≠ .error .tooDeep) :
    readWithin nesting cs = read cs := by
  rcases foldlM_buildWithin_cases nesting ([], .value) (lexFrom [] .between cs) with
    hdeep | hsame
  · rw [readWithin, hdeep] at h
    exact absurd rfl h
  · rw [readWithin, read, hsame]

/-- There is no room for a text exactly if more brackets are open somewhere, up to the first place
where it is no JSON. -/
theorem readWithin_eq_tooDeep_iff :
    readWithin nesting cs = .error .tooDeep ↔
      ∃ front rest last, lexFrom [] .between cs = front ++ rest ∧
        front.foldlM build ([], .value) = .ok last ∧ nesting < last.1.length := by
  rw [← foldlM_buildWithin_eq_tooDeep_iff (Nat.zero_le _), readWithin]
  cases (lexFrom [] .between cs).foldlM (buildWithin nesting) ([], .value) with
  | error e =>
    have hfails : ∀ {α : Type} {f : State → Except Fault α},
        ((.error e : Except Fault State) >>= f) = .error .tooDeep ↔ e = .tooDeep := fun {_ _} =>
      ⟨Except.error.inj, congrArg _⟩
    rw [hfails, Except.error.injEq]
  | ok last =>
    refine ⟨fun h => ?_, nofun⟩
    rw [Except.ok_bind] at h
    split at h <;> cases h

end Within

/-! ## Halves of pairs -/

/-- Whether a step of the machine leaves half a pair without the other. Texts are characters here,
and half a pair is none, so the machine puts something else in its place. -/
def LexState.losesHalf : LexState → Char → Bool
  | .digits _ high left value, c => match Text.hexDigit? c with
    | none => false
    | some d => left ≤ 1 && (isLow (16 * value + d) != high.isSome)
  | .pair _ _, c => c != Text.backslash
  | .pairEscape _ _, c => c != 'u'
  | _, _ => false

/-- Whether some step on the way through a text does. -/
def losesHalfFrom : LexState → List Char → Bool
  | _, [] => false
  | s, c :: cs => s.losesHalf c || match lexStep s c with
    | none => false
    | some (_, s') => losesHalfFrom s' cs

/-- A text with half a pair of units. What is read of it is not quite what it says. -/
def LosesHalf (cs : List Char) : Prop := losesHalfFrom .between cs = true

instance (cs : List Char) : Decidable (LosesHalf cs) := inferInstanceAs (Decidable (_ = true))

example : ¬ LosesHalf "\"\\ud83d\\ude00\"".toList ∧ LosesHalf "\"\\ud83d\"".toList := by
  decide +kernel

end NotebookTree.Json
