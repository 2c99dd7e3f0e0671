import NotebookTree.Proofs.Settings

/-!
# The history of settings

Settings come about in steps: they are made, or they are made from the current ones with changes. A
field of them cannot be set in place. What is made is brought into form and checked, and checking it
once more changes nothing. From this comes all that lasts: settings are valid after any history, an
update without changes gives them back, and two updates are the same as one with the changes of
both, since the second finds what the first has left as it would be left anyway.

## Main definitions

* `IsValid`: valid settings.
* `IsChecked`: settings that checking leaves as they are.
* `Step`, `Step.result`, `current`: what is done to settings, and the settings after it was done.

## Main results

* `update_update`: two updates are one.
* `history_valid`: settings over any history.
-/

namespace NotebookTree.Settings

variable {k : Kind} {name : String} {v w : Value}

/-! ## Fields that have been checked -/

/-- What a valid field holds: extensions are a tuple of known names, the backend is one of those
that may be asked for, and a class that is a text has characters, none of them blank. Nothing is
asked of other fields. -/
def IsValidField (k : Kind) (name : String) (v : Value) : Prop :=
  match k, name with
  | .markdownSettings, "plugins" | .markdownToHtmlSettings, "plugins" =>
    ∃ names : List String, v = .tuple (names.map .text) ∧ ∀ n ∈ names, n ∈ extensionNames
  | .htmlSettings, "html_parser" => ∃ s ∈ backends, v = .text s
  | .renderSettings, "wrapper_class" =>
    ∀ s, v = .text s → s.toList ≠ [] ∧ ∀ c ∈ s.toList, Text.isBlank c = false
  | _, _ => True

/-- There is nothing to say only about names that are known. -/
theorem complaint?_eq_none (h : complaint? v = .ok none) : ∃ s ∈ extensionNames, v = .text s := by
  cases v with
  | text s =>
    rw [complaint?] at h
    split at h
    · rename_i hs
      exact ⟨s, List.contains_iff_mem.mp hs, rfl⟩
    · cases Except.ok.inj h
  | tuple vs =>
    -- a tuple is no name, so something is said about it or it cannot be looked up
    rw [complaint?] at h
    split at h
    · cases Except.ok.inj h
    · cases h
  | _ => cases h

/-- Names about which nothing is said are known ones. -/
theorem exists_names_of_complaints : ∀ {vs : List Value} {complaints : List (Option String)},
    vs.mapM complaint? = .ok complaints → complaints.filterMap id = [] →
      ∃ names : List String, vs = names.map .text ∧ ∀ n ∈ names, n ∈ extensionNames
  | [], _, _, _ => ⟨[], rfl, List.forall_mem_nil _⟩
  | v :: vs, complaints, h, hnone => by
    rw [List.mapM_cons] at h
    obtain ⟨first, hfirst, h⟩ := Except.bind_eq_ok.mp h
    obtain ⟨rest, hrest, h⟩ := Except.bind_eq_ok.mp h
    obtain rfl := Except.ok.inj h
    cases first with
    | some said => simp at hnone
    | none =>
      obtain ⟨s, hs, rfl⟩ := complaint?_eq_none hfirst
      obtain ⟨names, rfl, hnames⟩ := exists_names_of_complaints hrest (by simpa using hnone)
      exact ⟨s :: names, rfl, List.forall_mem_cons.mpr ⟨hs, hnames⟩⟩

/-- The names that pass are a tuple of names of extensions. -/
theorem exists_names_of_checkExtensions (h : checkExtensions v = .ok w) :
    ∃ names : List String, w = .tuple (names.map .text) ∧ ∀ n ∈ names, n ∈ extensionNames := by
  obtain ⟨vs, -, h⟩ := Except.bind_eq_ok.mp h
  obtain ⟨complaints, hcomplaints, h⟩ := Except.bind_eq_ok.mp h
  split at h
  · rename_i hnone
    obtain ⟨names, rfl, hnames⟩ := exists_names_of_complaints hcomplaints hnone
    exact ⟨names, (Except.ok.inj h).symm, hnames⟩
  · cases h

/-- There is no complaint about the names of extensions. -/
theorem mapM_complaint?_of_known : ∀ {names : List String}, (∀ n ∈ names, n ∈ extensionNames) →
    (names.map Value.text).mapM complaint? = .ok (names.map fun _ => none)
  | [], _ => rfl
  | s :: names, h => by
    obtain ⟨hs, hnames⟩ := List.forall_mem_cons.mp h
    have hfirst : complaint? (.text s) = .ok none := if_pos (by simpa using hs)
    rw [List.map_cons, List.mapM_cons, hfirst, Except.ok_bind, mapM_complaint?_of_known hnames]
    rfl

/-- A tuple of known names is left as it is. -/
theorem checkExtensions_of_known {names : List String} (h : ∀ n ∈ names, n ∈ extensionNames) :
    checkExtensions (.tuple (names.map .text)) = .ok (.tuple (names.map .text)) := by
  have hitems : (Value.tuple (names.map .text)).items = .ok (names.map .text) := rfl
  have hquiet : (names.map fun _ => (none : Option String)).filterMap id = [] := by
    simp [List.filterMap_map]
  rw [checkExtensions, hitems, Except.ok_bind, mapM_complaint?_of_known h, Except.ok_bind, hquiet]
  rfl

/-- What passes is one of the names for a parser. -/
theorem exists_backend_of_checkBackend (h : checkBackend v = .ok w) :
    w = v ∧ ∃ s ∈ backends, v = .text s := by
  cases v with
  | text s =>
    rw [checkBackend] at h
    split at h
    · rename_i hs
      exact ⟨(Except.ok.inj h).symm, s, List.contains_iff_mem.mp hs, rfl⟩
    · cases h
  | _ => cases h

/-- One of the characters of a text is blank. -/
theorem someBlank_chars (cs : List Char) :
    someBlank (cs.map fun c => .text (String.singleton c)) = .ok (cs.any Text.isBlank) := by
  induction cs with
  | nil => rfl
  | cons c cs ih =>
    rw [List.map_cons, someBlank, ih, List.any_cons]
    cases hc : Text.isBlank c <;> simp [hc]

/-- Only what counts as true and has nothing blank among its items passes for a class. -/
theorem checkClass_eq_ok (h : checkClass v = .ok w) :
    w = v ∧ v.isTruthy = true ∧ v.items >>= someBlank = .ok false := by
  rw [checkClass] at h
  split at h
  · rename_i htruthy
    obtain ⟨blank, hblank, h⟩ := Except.bind_eq_ok.mp h
    cases blank with
    | true => cases h
    | false => exact ⟨(Except.ok.inj h).symm, htruthy, hblank⟩
  · cases h

/-- A text that passes for a class has characters, and none of them is blank. -/
theorem clear_of_checkClass {s : String} (h : checkClass (.text s) = .ok w) :
    s.toList ≠ [] ∧ ∀ c ∈ s.toList, Text.isBlank c = false := by
  obtain ⟨-, htruthy, hblank⟩ := checkClass_eq_ok h
  have hitems : (Value.text s).items =
      .ok (s.toList.map fun c => .text (String.singleton c)) := rfl
  rw [hitems, Except.ok_bind, someBlank_chars] at hblank
  have hclear := List.any_eq_false.mp (Except.ok.inj hblank)
  exact ⟨by simpa [Value.isTruthy] using htruthy, fun c hc => by simpa using hclear c hc⟩

/-- A field that has been checked is valid. -/
theorem isValidField_of_checkField (h : checkField k name v = .ok w) : IsValidField k name w := by
  unfold IsValidField
  split
  · obtain ⟨names, rfl, hnames⟩ := exists_names_of_checkExtensions h
    exact ⟨names, rfl, hnames⟩
  · obtain ⟨names, rfl, hnames⟩ := exists_names_of_checkExtensions h
    exact ⟨names, rfl, hnames⟩
  · obtain ⟨rfl, hs⟩ := exists_backend_of_checkBackend h
    exact hs
  · obtain ⟨rfl, -⟩ := checkClass_eq_ok h
    exact fun s hs => clear_of_checkClass (hs ▸ h)
  · trivial

/-- To check a field once more changes nothing. -/
theorem checkField_of_checkField (h : checkField k name v = .ok w) :
    checkField k name w = .ok w := by
  unfold checkField at h ⊢
  split at h
  · obtain ⟨names, rfl, hnames⟩ := exists_names_of_checkExtensions h
    exact checkExtensions_of_known hnames
  · obtain ⟨names, rfl, hnames⟩ := exists_names_of_checkExtensions h
    exact checkExtensions_of_known hnames
  · obtain ⟨rfl, -⟩ := exists_backend_of_checkBackend h
    exact h
  · obtain ⟨rfl, -⟩ := checkClass_eq_ok h
    exact h
  · rfl

/-! ## Settings by the fields of their kind -/

/-- Whether one of the names is none of the kind's. -/
def hasStranger (k : Kind) (given : Entries Value) : Bool :=
  given.any fun g => !k.fields.any fun f => f.1 == g.1

/-- The value for a field of settings that are made of named values. -/
def valueFor (given : Entries Value) (f : String × Option Value) : Value :=
  ((given.lookup f.1).or f.2).getD .null

/-- The fields of a kind with the given values. -/
def withValues (k : Kind) (w : String × Option Value → Value) : Entries Value :=
  k.fields.map fun f => (f.1, w f)

/-- All fields of settings have defaults. -/
theorem isSome_default (hk : k ∈ Kind.settingsKinds) : ∀ f ∈ k.fields, f.2.isSome = true := by
  simp only [Kind.settingsKinds, List.mem_cons, List.not_mem_nil, or_false] at hk
  rcases hk with rfl | rfl | rfl | rfl | rfl <;> simp [Kind.fields]

/-- Of fields with names of their own, each is found. -/
theorem lookup_map_of_mem {fs : List (String × Option Value)} (hnodup : (fs.map Prod.fst).Nodup)
    (w : String × Option Value → Value) {f : String × Option Value} (hf : f ∈ fs) :
    List.lookup f.1 (fs.map fun f => (f.1, w f)) = some (w f) := by
  induction fs with
  | nil => cases hf
  | cons g fs ih =>
    obtain ⟨hnew, hnodup⟩ := List.nodup_cons.mp hnodup
    rw [List.map_cons, Entries.lookup_cons_eq]
    obtain rfl | hf := List.mem_cons.mp hf
    · exact if_pos rfl
    · have hne : f.1 ≠ g.1 := fun heq => hnew (heq ▸ List.mem_map_of_mem hf)
      rw [if_neg hne, ih hnodup hf]

/-- Values for the fields of a class bring no stranger. -/
theorem hasStranger_withValues (k : Kind) (w : String × Option Value → Value) :
    hasStranger k (withValues k w) = false := by
  refine List.any_eq_false.mpr fun g hg => ?_
  obtain ⟨f, hf, rfl⟩ := List.mem_map.mp hg
  simpa using ⟨f.2, hf⟩

/-- There is a stranger among more values when there was one or one comes in. -/
theorem hasStranger_putAll (k : Kind) (given more : Entries Value) :
    hasStranger k (given.putAll more) = (hasStranger k given || hasStranger k more) :=
  Entries.any_putAll fun name => !k.fields.any fun f => f.1 == name

/-- Since all fields of settings have defaults, only a strange name does not fit. -/
theorem fill_eq (hk : k ∈ Kind.settingsKinds) (given : Entries Value) :
    k.fill given = if hasStranger k given then .error .wrongType
      else .ok (withValues k (valueFor given)) := by
  rw [Kind.fill, hasStranger]
  split
  · rfl
  · refine Except.mapM_eq_map fun f hf => ?_
    obtain ⟨default, hdefault⟩ := Option.isSome_iff_exists.mp (isSome_default hk f hf)
    rw [valueFor, Entries.get?, hdefault]
    cases given.lookup f.1 <;> rfl

/-- Settings of a kind with the given values, each checked. -/
def assemble (k : Kind) (v : String × Option Value → Value) : Except Fault Value :=
  (k.fields.mapM fun f => checkField k f.1 (v f) >>= fun w => .ok (f.1, w)) >>=
    fun fields => .ok (.node k fields)

/-- Values that are checked to the same make the same settings. -/
theorem assemble_congr {v w : String × Option Value → Value}
    (h : ∀ f ∈ k.fields, checkField k f.1 (v f) = checkField k f.1 (w f)) :
    assemble k v = assemble k w := by
  rw [assemble, assemble, Except.mapM_congr fun f hf => by rw [h f hf]]

/-- Values that pass the checks make the settings with what the checks leave. -/
theorem assemble_eq_ok {v w : String × Option Value → Value}
    (h : ∀ f ∈ k.fields, checkField k f.1 (v f) = .ok (w f)) :
    assemble k v = .ok (.node k (withValues k w)) := by
  have hfields : k.fields.mapM (fun f => checkField k f.1 (v f) >>= fun x => .ok (f.1, x)) =
      .ok (withValues k w) := Except.mapM_eq_map fun f hf => by rw [h f hf, Except.ok_bind]
  rw [assemble, hfields, Except.ok_bind]

/-- The values of settings that could be assembled. -/
theorem exists_values_of_assemble {v : String × Option Value → Value} {o : Value}
    (h : assemble k v = .ok o) : ∃ w, o = .node k (withValues k w) ∧
      ∀ f ∈ k.fields, checkField k f.1 (v f) = .ok (w f) := by
  have hw : ∀ f ∈ k.fields, checkField k f.1 (v f) =
      .ok ((checkField k f.1 (v f)).toOption.getD .null) := by
    intro f hf
    obtain ⟨fields, hfields, -⟩ := Except.bind_eq_ok.mp h
    obtain ⟨b, hb⟩ := Except.exists_of_mapM hfields f hf
    obtain ⟨x, hx, -⟩ := Except.bind_eq_ok.mp hb
    rw [hx]
    rfl
  exact ⟨_, Except.ok.inj (h.symm.trans (assemble_eq_ok hw)), hw⟩

/-- Making settings brings the given values, or the defaults for them, into form. -/
theorem make_eq (hk : k ∈ Kind.settingsKinds) (given : Entries Value) : make k given =
    if hasStranger k given then .error .wrongType else assemble k (valueFor given) := by
  rw [make, fill_eq hk]
  split
  · rfl
  · rw [Except.ok_bind, check, withValues, List.mapM_map]
    rfl

/-- The value that an update leaves or sets. -/
theorem valueFor_putAll (w : String × Option Value → Value) (changes : Entries Value)
    {f : String × Option Value} (hf : f ∈ k.fields) :
    valueFor (Entries.putAll (withValues k w) changes) f =
      (changes.reverse.lookup f.1).getD (w f) := by
  rw [valueFor, Entries.lookup_putAll, withValues, lookup_map_of_mem k.nodup_names w hf]
  cases changes.reverse.lookup f.1 <;> rfl

/-- An update makes settings of the values that are set and, for other fields, of those there. -/
theorem update_eq (hk : k ∈ Kind.settingsKinds) (w : String × Option Value → Value)
    (changes : Entries Value) : update (.node k (withValues k w)) changes =
      if hasStranger k changes then .error .wrongType
      else assemble k fun f => (changes.reverse.lookup f.1).getD (w f) := by
  have hsettings : Kind.settingsKinds.contains k = true := List.contains_iff_mem.mpr hk
  rw [update, if_pos hsettings, make_eq hk, hasStranger_putAll, hasStranger_withValues,
    Bool.false_or, assemble_congr fun f hf => by rw [valueFor_putAll w changes hf]]

/-! ## Checked settings -/

/-- Settings that checking leaves as they are. -/
inductive IsChecked : Value → Prop
  | intro {k : Kind} {w : String × Option Value → Value} (hk : k ∈ Kind.settingsKinds)
    (h : ∀ f ∈ k.fields, checkField k f.1 (w f) = .ok (w f)) : IsChecked (.node k (withValues k w))

/-- What is made of checked values is checked. -/
theorem isChecked_of_assemble (hk : k ∈ Kind.settingsKinds) {v : String × Option Value → Value}
    {o : Value} (h : assemble k v = .ok o) : IsChecked o := by
  obtain ⟨w, rfl, hw⟩ := exists_values_of_assemble h
  exact .intro hk fun f hf => checkField_of_checkField (hw f hf)

/-- Settings that are made are checked. -/
theorem isChecked_of_make (hk : k ∈ Kind.settingsKinds) {given : Entries Value} {o : Value}
    (h : make k given = .ok o) : IsChecked o := by
  rw [make_eq hk] at h
  split at h
  · cases h
  · exact isChecked_of_assemble hk h

/-- Settings that are updated are checked again. -/
theorem isChecked_of_update {o next : Value} {changes : Entries Value} (ho : IsChecked o)
    (h : update o changes = .ok next) : IsChecked next := by
  obtain ⟨hk, -⟩ := ho
  rw [update_eq hk] at h
  split at h
  · cases h
  · exact isChecked_of_assemble hk h

/-- An update without changes gives the same settings. -/
theorem update_nil {o : Value} (h : IsChecked o) : update o [] = .ok o := by
  obtain ⟨hk, hw⟩ := h
  rw [update_eq hk, hasStranger, List.any_nil, if_neg Bool.false_ne_true]
  exact assemble_eq_ok hw

/-- Two updates, one after the other, do what one does with the changes of both. -/
theorem update_update {o next : Value} {a : Entries Value} (ho : IsChecked o)
    (h : update o a = .ok next) (b : Entries Value) : update next b = update o (a.putAll b) := by
  obtain ⟨hk, -⟩ := ho
  rw [update_eq hk] at h
  split at h
  · cases h
  · rename_i hknown
    obtain ⟨u, rfl, hu⟩ := exists_values_of_assemble h
    rw [update_eq hk, update_eq hk, hasStranger_putAll, eq_false_of_ne_true hknown, Bool.false_or]
    refine congrArg _ (assemble_congr fun f hf => ?_)
    rw [Entries.reverse_lookup_putAll]
    cases b.reverse.lookup f.1 with
    | some v => rfl
    | none =>
      -- the first update has checked this value, and the second finds it checked
      exact (checkField_of_checkField (hu f hf)).trans (hu f hf).symm

/-- Valid settings: those of one of the kinds, with the fields of the kind, of which each is
valid. -/
def IsValid (o : Value) : Prop :=
  ∃ k ∈ Kind.settingsKinds, ∃ fields, o = .node k fields ∧
    fields.map Prod.fst = k.fields.map Prod.fst ∧ ∀ f ∈ fields, IsValidField k f.1 f.2

/-- Checked settings are valid. -/
theorem IsChecked.isValid {o : Value} (h : IsChecked o) : IsValid o := by
  obtain ⟨hk, hw⟩ := h
  refine ⟨_, hk, _, rfl, List.map_map, fun g hg => ?_⟩
  obtain ⟨f, hf, rfl⟩ := List.mem_map.mp hg
  exact isValidField_of_checkField (hw f hf)

/-! ## What is done to settings -/

/-- What is done to settings: others are made, they are updated, or a field of them is set in
place. -/
inductive Step where
  | make (k : Kind) (hk : k ∈ Kind.settingsKinds) (given : Entries Value)
  | update (changes : Entries Value)
  | assign (name : String) (v : Value)

/-- What comes of a step: settings, or a fault. -/
def Step.result (current : Value) : Step → Except Fault Value
  | .make k _ given => Settings.make k given
  | .update changes => Settings.update current changes
  | .assign name _ => .error (Settings.assign current name)

/-- The settings after a step: those that came of it, or else those from before. -/
def Step.after (current : Value) (s : Step) : Value := (s.result current).toOption.getD current

/-- The settings after a history that begins without any. -/
def current (steps : List Step) : Value := steps.foldl Step.after .null

/-- A step that has a result ends in checked settings, whatever there was before. -/
theorem Step.isChecked_of_result {o next : Value} (ho : o = .null ∨ IsChecked o) {s : Step}
    (h : s.result o = .ok next) : IsChecked next := by
  cases s with
  | make k hk given => exact isChecked_of_make hk h
  | update changes =>
    obtain rfl | ho := ho
    · cases h
    · exact isChecked_of_update ho h
  | assign name v => cases h

/-- After a step there are no settings, or checked ones. -/
theorem Step.after_isChecked {o : Value} (ho : o = .null ∨ IsChecked o) (s : Step) :
    s.after o = .null ∨ IsChecked (s.after o) := by
  rw [Step.after]
  cases h : s.result o with
  | ok next => exact .inr (s.isChecked_of_result ho h)
  | error e => exact ho

/-- Whatever was done, there are no settings yet, or checked ones. -/
theorem current_isChecked (steps : List Step) :
    current steps = .null ∨ IsChecked (current steps) := by
  have hrun : ∀ o, (o = .null ∨ IsChecked o) →
      (steps.foldl Step.after o = .null ∨ IsChecked (steps.foldl Step.after o)) := by
    induction steps with
    | nil => exact fun _ ho => ho
    | cons s steps ih => exact fun o ho => ih _ (s.after_isChecked ho)
  exact hrun _ (.inl rfl)

/-- The settings after one step more are what that step makes of the settings before it. -/
theorem current_append (steps : List Step) (s : Step) :
    current (steps ++ [s]) = s.after (current steps) := by
  rw [current, List.foldl_append]
  rfl

/-- A field of checked settings cannot be set in place. -/
theorem assign_of_isChecked {o : Value} (h : IsChecked o) (name : String) :
    assign o name = .frozen := by
  obtain ⟨hk, -⟩ := h
  exact if_pos (List.contains_iff_mem.mpr hk)

/-- Settings over any history. The current ones, if there are any, are valid, and no field of them
can be set in place. What comes of a further step becomes current and is valid, an update without
changes gives it back, and two updates of it are the same as one. A step that fails changes
nothing. -/
theorem history_valid (steps : List Step) (s : Step) :
    (current steps = .null ∨ IsValid (current steps) ∧
      ∀ name v, (Step.assign name v).result (current steps) = .error .frozen) ∧
    (∀ o, s.result (current steps) = .ok o →
      current (steps ++ [s]) = o ∧ IsValid o ∧ update o [] = .ok o ∧
        ∀ a next, update o a = .ok next → ∀ b, update next b = update o (a.putAll b)) ∧
    ∀ e, s.result (current steps) = .error e → current (steps ++ [s]) = current steps := by
  refine ⟨?_, fun o h => ?_, fun e h => ?_⟩
  · refine (current_isChecked steps).imp_right fun ho => ⟨ho.isValid, fun name v => ?_⟩
    exact congrArg _ (assign_of_isChecked ho name)
  · -- what a step makes has been checked, whatever stood there before it
    have ho : IsChecked o := s.isChecked_of_result (current_isChecked steps) h
    refine ⟨?_, ho.isValid, update_nil ho, fun a next ha b => update_update ho ha b⟩
    rw [current_append, Step.after, h]
    rfl
  · rw [current_append, Step.after, h]
    rfl

/-- Settings for Markdown were made with tables; a field was set in place, and an update had a name
that there is no field for. -/
def tablesHistory : List Step :=
  [.make .markdownSettings (by decide) [("plugins", .list [.text "table"])],
    .assign "plugins" (.tuple []), .update [("plugin", .tuple [])]]

/-- After that, there are still the first settings, and the extensions are a tuple. -/
theorem history_valid_tables :
    ∃ o, (Step.update [("plugins", .list [.text "math"])]).result (current tablesHistory) = .ok o ∧
      update o [("plugins", .list [.text "url"])] =
        .ok (.node .markdownSettings [("plugins", .tuple [.text "url"])]) ∧
      current (tablesHistory ++ [.update [("plugins", .list [.text "math"])]]) = o ∧ IsValid o ∧
      update (.node .markdownSettings [("plugins", .tuple [.text "url"])]) [] =
        update o [("plugins", .list [.text "url"])] := by
  have hresult : (Step.update [("plugins", .list [.text "math"])]).result (current tablesHistory) =
      .ok (.node .markdownSettings [("plugins", .tuple [.text "math"])]) := by rfl
  have hnext : update (.node .markdownSettings [("plugins", .tuple [.text "math"])])
      [("plugins", .list [.text "url"])] =
        .ok (.node .markdownSettings [("plugins", .tuple [.text "url"])]) := by rfl
  obtain ⟨hcurrent, hvalid, -, hupdates⟩ := (history_valid tablesHistory _).2.1 _ hresult
  exact ⟨_, hresult, hnext, hcurrent, hvalid, hupdates _ _ hnext []⟩

end NotebookTree.Settings
