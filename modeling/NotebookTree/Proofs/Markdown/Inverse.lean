import NotebookTree.Proofs.Markdown.Return

/-!
# Tokens and elements are inverse

An open token is the same when it comes back from its element, but for the order of its fields. The
other way nothing changes at all: an element comes back from its token as it was, if its value is a
text or missing and its extra fields have names of their own.

## Main definitions

* `IsElementTree`: elements that tokens have a place for, down to the last of them.

## Main results

* `toElement_fieldsOfElement`: the element of a token with the fields of an element.
* `token_element_inverse`: tokens and elements come back from each other.
-/

namespace NotebookTree.Markdown

/-- The value and the extra fields of an element that a token has a place for. -/
structure ElementParts (value : Value) (extra : Entries Value) : Prop where
  textual : value = .null ∨ ∃ s, value = .text s
  free : IsExtra extra
  distinct : (extra.map Prod.fst).Nodup

/-- Elements that tokens have a place for, down to the last of them. -/
inductive IsElementTree : Value → Prop
  | leaf {type value : Value} {attributes extra : Entries Value} (here : ElementParts value extra) :
      IsElementTree (.node .element
        (elementFields type .null value (.record attributes) (.record extra)))
  | branch {type value : Value} {attributes extra : Entries Value} {children : List Value}
      (here : ElementParts value extra) (below : ∀ c ∈ children, IsElementTree c) :
      IsElementTree (.node .element
        (elementFields type (.list children) value (.record attributes) (.record extra)))

section Parts

variable (type : Value) {value : Value} (attributes : Entries Value) {extra : Entries Value}

/-- The extra fields of an element are those of its token that have no place of their own. -/
theorem ElementParts.extra_fieldsOfElement (h : ElementParts value extra)
    (children : Option (List Token)) :
    (Token.mk (fieldsOfElement type value attributes extra) children).extra = extra := by
  have hbase : Entries.putAll [("type", type)] extra = ("type", type) :: extra := by
    refine Entries.putAll_of_nodup (List.nodup_cons.mpr ⟨fun hmem => ?_, h.distinct⟩)
    obtain ⟨e, he, htype⟩ := List.mem_map.mp hmem
    have hfree := h.free e he
    rw [htype] at hfree
    cases hfree
  have hkept : extra.filter (fun e => !Token.isOwnField e.1) = extra :=
    List.filter_eq_self.mpr fun e he => by rw [h.free e he]; rfl
  have hbare : (fieldsOfElement type .null attributes extra).filter
      (fun e => !Token.isOwnField e.1) = extra := by
    rw [fieldsOfElement, hbase]
    split
    · exact hkept
    · exact (Entries.filter_put _ _ _ (p := fun name => !Token.isOwnField name) rfl).trans hkept
  rw [Token.extra, Token.fields]
  -- a text stands under `raw`, which is a field of the token itself
  obtain rfl | ⟨s, rfl⟩ := h.textual
  · exact hbare
  · exact (Entries.filter_put _ _ _ (p := fun name => !Token.isOwnField name) rfl).trans hbare

/-- The element of a token with the fields of an element. -/
theorem ElementParts.toElement_fieldsOfElement (h : ElementParts value extra)
    (children : Option (List Token)) :
    (Token.mk (fieldsOfElement type value attributes extra) children).toElement =
      .node .element (elementFields type (childrenValue children) value (.record attributes)
        (.record extra)) := by
  have hextra := h.extra_fieldsOfElement type attributes children
  rw [Token.toElement.eq_def]
  simp only [Token.get?, Token.fields, Entries.get?, hextra, lookup_type_fieldsOfElement h.free,
    lookup_raw_fieldsOfElement h.free, lookup_attrs_fieldsOfElement h.free, Option.getD_some]
  obtain rfl | ⟨s, rfl⟩ := h.textual
  · cases attributes <;> cases children <;> rfl
  · cases attributes <;> cases children <;> rfl

/-- The token of an element, with tokens for its children. -/
theorem ElementParts.exists_token (h : ElementParts value extra) {children : Value}
    (tokens : Option (List Token)) (htokens : tokensOfList children = .ok tokens)
    (hchildren : childrenValue tokens = children) :
    ∃ t, tokenOfElement (.node .element (elementFields type children value (.record attributes)
        (.record extra))) = .ok t ∧
      t.toElement = .node .element (elementFields type children value (.record attributes)
        (.record extra)) := by
  have hchildless : Entries.has (fieldsOfElement type value attributes extra) "children" = false :=
    not_has_children_fieldsOfElement h.free
  refine ⟨.mk (fieldsOfElement type value attributes extra) tokens, ?_, ?_⟩
  · rw [tokenOfElement, tokenFields_element, Except.ok_bind, tokensOfChildren_elementFields, htokens,
      Except.ok_bind]
    -- a token keeps its children apart from its entries, where an element has them as an entry
    cases tokens with
    | none =>
      rw [tokenOfEntries_of_not_has none _ [] hchildless, List.nil_append]
      rfl
    | some ts =>
      exact congrArg (fun es => Except.ok (Token.mk es (some ts)))
        (Entries.erase_of_not_has hchildless)
  · rw [h.toElement_fieldsOfElement, hchildren]

end Parts

/-- The elements that come back, given that each does. -/
theorem exists_elementsOf {vs : List Value}
    (h : ∀ v ∈ vs, ∃ t, tokenOfElement v = .ok t ∧ t.toElement = v) :
    ∃ ts, tokensOfElements vs = .ok ts ∧ elementsOf ts = vs := by
  induction vs with
  | nil => exact ⟨[], rfl, rfl⟩
  | cons v vs ih =>
    obtain ⟨t, ht, hv⟩ := h v List.mem_cons_self
    obtain ⟨ts, hts, hvs⟩ := ih fun w hw => h w (List.mem_cons_of_mem _ hw)
    refine ⟨t :: ts, ?_, ?_⟩
    · rw [tokensOfElements, ht, Except.ok_bind, hts, Except.ok_bind]
      rfl
    · rw [elementsOf, hv, hvs]

/-- An element comes back from its token as it was. -/
theorem exists_token_of_elementTree {e : Value} (h : IsElementTree e) :
    ∃ t, tokenOfElement e = .ok t ∧ t.toElement = e := by
  induction h with
  | leaf here => exact here.exists_token _ _ none rfl rfl
  | branch here below ih =>
    obtain ⟨ts, hts, helements⟩ := exists_elementsOf ih
    refine here.exists_token _ _ (some ts) ?_ ?_
    · rw [tokensOfList, hts, Except.ok_bind]
      rfl
    · rw [childrenValue, helements]

/-- Tokens and elements are inverse: an open token comes back from its element with the same value in
each field and the same children, and an element comes back from its token as it was. -/
theorem token_element_inverse :
    (∀ t : Token, t.IsOpen →
      ∃ t', tokenOfElement t.toElement = .ok t' ∧ t.Same t' ∧ t'.IsOpen) ∧
    ∀ e : Value, IsElementTree e → ∃ t, tokenOfElement e = .ok t ∧ t.toElement = e :=
  ⟨fun _ => exists_same_of_open, fun _ => exists_token_of_elementTree⟩

/-- A heading with its type behind its other fields. -/
def headingToken : Token :=
  .mk [("style", .text "atx"), ("attrs", .record [("level", .int 1)]), ("type", .text "heading")]
    (some [.mk [("raw", .text "Title"), ("type", .text "text")] none])

/-- A link in an element of a type of its own. -/
def linkElement : Value :=
  .node .element (elementFields (.text "note")
    (.list [.node .element (elementFields (.text "link") .null (.text "here")
      (.record [("url", .text "#")]) (.record [("label", .null)]))])
    .null (.record []) (.record [("style", .text "aside")]))

/-- The heading and the link come back. -/
theorem token_element_inverse_sample :
    (headingToken.IsOpen ∧
      ∃ t, tokenOfElement headingToken.toElement = .ok t ∧ headingToken.Same t ∧ t.IsOpen) ∧
    (IsElementTree linkElement ∧
      ∃ t, tokenOfElement linkElement = .ok t ∧ t.toElement = linkElement) := by
  have htitle : Token.IsOpen (.mk [("raw", .text "Title"), ("type", .text "text")] none) :=
    .mk ⟨⟨_, rfl⟩, fun _ hraw => ⟨_, (Option.some.inj hraw).symm⟩, fun _ => nofun, rfl, by decide⟩
      fun _ => nofun
  have hheading : headingToken.IsOpen := by
    refine .mk ⟨⟨_, rfl⟩, fun _ => nofun, fun _ hattrs => ?_, rfl, by decide⟩ fun ts hts => ?_
    · exact ⟨_, (Option.some.inj hattrs).symm, List.cons_ne_nil _ _⟩
    · rw [← Option.some.inj hts]
      exact List.forall_mem_singleton.mpr htitle
  have hlink : IsElementTree linkElement := by
    refine .branch ⟨.inl rfl, List.forall_mem_singleton.mpr rfl, by decide⟩
      (List.forall_mem_singleton.mpr ?_)
    exact .leaf ⟨.inr ⟨_, rfl⟩, List.forall_mem_singleton.mpr rfl, by decide⟩
  exact ⟨⟨hheading, token_element_inverse.1 _ hheading⟩, hlink, token_element_inverse.2 _ hlink⟩

end NotebookTree.Markdown
