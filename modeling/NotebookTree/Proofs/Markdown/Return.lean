import NotebookTree.Proofs.Entries
import NotebookTree.Proofs.Markdown.Regular
import NotebookTree.Proofs.Sequence

/-!
# Tokens that come back from elements

The element of a token holds all that the token does, and gives it back. The token that comes back
has its fields in another order, the type first and the text last, but each field has the value that
it had, and the children come back in the same way.

## Main definitions

* `Token.Same`: tokens with the same fields in any order, and the same children.

## Main results

* `exists_same_of_open`, `exists_same_of_allRegular`: open tokens come back, and so regular ones.
-/

namespace NotebookTree.Markdown

/-! ## The same token -/

mutual

/-- Tokens with the same value in each field, and the same children. -/
def Token.Same : Token → Token → Prop
  | .mk fields children, .mk fields' children' =>
    (∀ name, fields'.get? name = fields.get? name) ∧ SameChildren children children'

/-- The same children, or none. -/
def SameChildren : Option (List Token) → Option (List Token) → Prop
  | none, none => True
  | some ts, some ts' => SameTokens ts ts'
  | _, _ => False

/-- Tokens that are the same one by one. -/
def SameTokens : List Token → List Token → Prop
  | [], [] => True
  | t :: ts, t' :: ts' => t.Same t' ∧ SameTokens ts ts'
  | _, _ => False

end

/-! ## From an element back to a token -/

/-- The fields that an element gives to a token: its type and extra fields, its attributes if there
are any, and its text if there is one. -/
def fieldsOfElement (type value : Value) (attributes extra : Entries Value) : Entries Value :=
  let base := Entries.putAll [("type", type)] extra
  let attributed := if attributes.isEmpty then base else base.put "attrs" (.record attributes)
  match value with
  | .null => attributed
  | v => attributed.put "raw" v

/-- The fields of a token are read from its element. -/
theorem tokenFields_element (type children value : Value) (attributes extra : Entries Value) :
    tokenFields (.node .element (elementFields type children value (.record attributes)
      (.record extra))) = .ok (fieldsOfElement type value attributes extra) := by
  cases attributes <;> cases extra <;> cases value <;> rfl

section Fields

variable {extra attributes : Entries Value} {type value : Value} {name : String}

/-- Extra fields have names of their own. -/
def IsExtra (extra : Entries Value) : Prop := ∀ e ∈ extra, Token.isOwnField e.1 = false

/-- The extra fields of a token are none of those that an element has of its own. -/
theorem isExtra_extra (t : Token) : IsExtra t.extra := fun e he => by
  simpa using (List.mem_filter.mp he).2

/-- No extra field comes in the way of the others. -/
theorem lookup_putAll_extra (h : IsExtra extra) (hname : Token.isOwnField name = true)
    (es : Entries Value) : (es.putAll extra).lookup name = es.lookup name := by
  refine Entries.lookup_putAll_of_notMem fun e he heq => ?_
  rw [← heq, h e he] at hname
  cases hname

/-- The fields of an element with its text, and without. -/
theorem fieldsOfElement_of_value (hv : value ≠ .null) :
    fieldsOfElement type value attributes extra =
      (fieldsOfElement type .null attributes extra).put "raw" value := by
  cases value with
  | null => exact absurd rfl hv
  | _ => rfl

/-- Among the fields of its own an element without a value has the type, and the attributes if there
are any. -/
theorem lookup_attributed (h : IsExtra extra) (hname : Token.isOwnField name = true)
    (hattrs : name ≠ "attrs") :
    (fieldsOfElement type .null attributes extra).lookup name = [("type", type)].lookup name := by
  rw [fieldsOfElement]
  split
  · exact lookup_putAll_extra h hname _
  · rw [Entries.lookup_put_of_ne _ hattrs, lookup_putAll_extra h hname]

/-- The text makes no difference to the other fields. -/
theorem lookup_fieldsOfElement_of_ne (hraw : name ≠ "raw") :
    (fieldsOfElement type value attributes extra).lookup name =
      (fieldsOfElement type .null attributes extra).lookup name := by
  by_cases hv : value = .null
  · rw [hv]
  · rw [fieldsOfElement_of_value hv, Entries.lookup_put_of_ne _ hraw]

/-- The type is read back. -/
theorem lookup_type_fieldsOfElement (h : IsExtra extra) :
    (fieldsOfElement type value attributes extra).lookup "type" = some type := by
  rw [lookup_fieldsOfElement_of_ne (by decide), lookup_attributed h rfl (by decide)]
  rfl

/-- The raw text is read back, if there is any. -/
theorem lookup_raw_fieldsOfElement (h : IsExtra extra) :
    (fieldsOfElement type value attributes extra).lookup "raw" =
      match value with
      | .null => none
      | v => some v := by
  by_cases hv : value = .null
  · rw [hv, lookup_attributed h rfl (by decide)]
    rfl
  · rw [fieldsOfElement_of_value hv, Entries.lookup_put_self]
    cases value with
    | null => exact absurd rfl hv
    | _ => rfl

/-- The attributes are read back, if there are any. -/
theorem lookup_attrs_fieldsOfElement (h : IsExtra extra) :
    (fieldsOfElement type value attributes extra).lookup "attrs" =
      if attributes.isEmpty then none else some (.record attributes) := by
  rw [lookup_fieldsOfElement_of_ne (by decide), fieldsOfElement]
  split
  · rw [lookup_putAll_extra h rfl]
    rfl
  · exact Entries.lookup_put_self _ _ _

/-- The children are not among the other fields that are read back. -/
theorem not_has_children_fieldsOfElement (h : IsExtra extra) :
    (fieldsOfElement type value attributes extra).has "children" = false := by
  rw [Entries.has_eq_isSome_lookup, lookup_fieldsOfElement_of_ne (by decide),
    lookup_attributed h rfl (by decide)]
  rfl

/-- An extra field is one of the element's. -/
theorem lookup_extra_fieldsOfElement (hdistinct : (extra.map Prod.fst).Nodup)
    (hname : Token.isOwnField name = false) :
    (fieldsOfElement type value attributes extra).lookup name = extra.lookup name := by
  have hne : ∀ own, Token.isOwnField own = true → name ≠ own := by
    rintro own hown rfl
    rw [hname] at hown
    cases hown
  have hbase : (Entries.putAll [("type", type)] extra).lookup name = extra.lookup name := by
    rw [Entries.lookup_putAll_of_nodup hdistinct, Entries.lookup_cons_of_ne (hne "type" rfl),
      List.lookup_nil, Option.or_none]
  rw [lookup_fieldsOfElement_of_ne (hne "raw" rfl), fieldsOfElement]
  split
  · exact hbase
  · rw [Entries.lookup_put_of_ne _ (hne "attrs" rfl), hbase]

/-- No field is twice among those of an element. -/
theorem nodup_fieldsOfElement (type value : Value) (attributes extra : Entries Value) :
    ((fieldsOfElement type value attributes extra).map Prod.fst).Nodup := by
  have hbase : ((Entries.putAll [("type", type)] extra).map Prod.fst).Nodup :=
    Entries.nodup_putAll (by simp)
  have hbare : ((fieldsOfElement type .null attributes extra).map Prod.fst).Nodup := by
    rw [fieldsOfElement]
    split
    · exact hbase
    · exact Entries.nodup_put _ hbase
  by_cases hv : value = .null
  · rwa [hv]
  · rw [fieldsOfElement_of_value hv]
    exact Entries.nodup_put _ hbare

end Fields

/-- Fields without children make a token with the children that are given. -/
theorem tokenOfEntries_of_not_has (children : Option (List Token)) :
    ∀ (es before : Entries Value), es.has "children" = false →
      tokenOfEntries before children es = .mk (before ++ es) children
  | [], before, _ => by rw [tokenOfEntries, List.append_nil]
  | (name, v) :: es, before, h => by
    obtain ⟨hname, hes⟩ : (name == "children") = false ∧ Entries.has es "children" = false := by
      simpa [Entries.has] using h
    have hskip : (if name == "children" then tokensOfItems v else none) = none :=
      if_neg (by simp [hname])
    rw [tokenOfEntries, hskip, tokenOfEntries_of_not_has children es _ hes, List.append_assoc,
      List.singleton_append]

/-- The children are read back from the field of that name. -/
theorem tokensOfChildren_elementFields (type children value attributes extra : Value) :
    tokensOfChildren (elementFields type children value attributes extra) =
      tokensOfList children := by
  simp [elementFields, tokensOfChildren]

/-- The children of a token in its element. -/
def childrenValue : Option (List Token) → Value
  | some ts => .list (elementsOf ts)
  | none => .null

/-- The element of an open token has the type of the token, its text if it has one, and its
attributes. -/
theorem toElement_of_open {fields : Entries Value} (children : Option (List Token))
    (h : OpenFields fields) : ∃ type value attributes,
      (Token.mk fields children).toElement = .node .element (elementFields type
        (childrenValue children) value (.record attributes)
        (.record (Token.mk fields children).extra)) ∧
      fields.get? "type" = some type ∧
      fields.get? "raw" = (match value with | .null => none | v => some v) ∧
      fields.get? "attrs" =
        if attributes.isEmpty then none else some (.record attributes) := by
  obtain ⟨word, htype⟩ := h.type
  -- an open token has no attributes or some, never an empty record, so their absence can be read
  -- back
  obtain ⟨attributes, hattrs⟩ : ∃ es, (fields.get? "attrs" = none ∧ es = []) ∨
      (fields.get? "attrs" = some (.record es) ∧ es ≠ []) := by
    cases hattrs : fields.get? "attrs" with
    | none => exact ⟨[], .inl ⟨rfl, rfl⟩⟩
    | some v =>
      obtain ⟨es, rfl, hes⟩ := h.attrs v hattrs
      exact ⟨es, .inr ⟨rfl, hes⟩⟩
  refine ⟨.text word, (fields.get? "raw").getD .null, attributes, ?_, htype, ?_, ?_⟩
  · rw [Token.toElement.eq_def]
    simp only [Token.get?, Token.fields, htype, Option.getD_some]
    obtain ⟨hnone, rfl⟩ | ⟨hsome, -⟩ := hattrs
    · rw [hnone]
      obtain hraw | ⟨s, hraw⟩ := h.raw_cases <;> rw [hraw] <;> cases children <;> rfl
    · rw [hsome]
      obtain hraw | ⟨s, hraw⟩ := h.raw_cases <;> rw [hraw] <;> cases children <;> rfl
  · obtain hraw | ⟨s, hraw⟩ := h.raw_cases <;> rw [hraw] <;> rfl
  · obtain ⟨hnone, rfl⟩ | ⟨hsome, hes⟩ := hattrs
    · exact hnone
    · rw [hsome, if_neg (by simpa using hes)]

/-- The fields of an open token come back from its element. -/
theorem lookup_fieldsOfElement {fields attributes : Entries Value} {type value : Value}
    (children : Option (List Token)) (h : OpenFields fields)
    (htype : fields.get? "type" = some type)
    (hraw : fields.get? "raw" = match value with | .null => none | v => some v)
    (hattrs : fields.get? "attrs" =
      if attributes.isEmpty then none else some (.record attributes)) (name : String) :
    (fieldsOfElement type value attributes (Token.mk fields children).extra).lookup name =
      fields.lookup name := by
  have hextra := isExtra_extra (Token.mk fields children)
  -- a field of the element's own is read back from its place, any other from among the extra ones
  by_cases hown : Token.isOwnField name = true
  · obtain ((rfl | rfl) | rfl) | rfl : ((name = "type" ∨ name = "children") ∨ name = "raw") ∨
        name = "attrs" := by simpa [Token.isOwnField] using hown
    · exact (lookup_type_fieldsOfElement hextra).trans htype.symm
    · rw [Entries.lookup_of_not_has (not_has_children_fieldsOfElement hextra),
        Entries.lookup_of_not_has h.childless]
    · exact (lookup_raw_fieldsOfElement hextra).trans hraw.symm
    · exact (lookup_attrs_fieldsOfElement hextra).trans hattrs.symm
  · have hfree : Token.isOwnField name = false := by simpa using hown
    have hdistinct : ((Token.mk fields children).extra.map Prod.fst).Nodup :=
      h.distinct.sublist (List.filter_sublist.map Prod.fst)
    rw [lookup_extra_fieldsOfElement hdistinct hfree]
    exact Entries.lookup_filter (p := fun name => !Token.isOwnField name) (by simp [hfree])

/-- What holds the same in each field is open as well, if it has no field twice. -/
theorem OpenFields.of_lookup {fields fields' : Entries Value} (h : OpenFields fields)
    (hlookup : ∀ name, fields'.lookup name = fields.lookup name)
    (hdistinct : (fields'.map Prod.fst).Nodup) : OpenFields fields' where
  type := by
    rw [Entries.get?, hlookup]
    exact h.type
  raw := by
    rw [Entries.get?, hlookup]
    exact h.raw
  attrs := by
    rw [Entries.get?, hlookup]
    exact h.attrs
  childless := by
    rw [Entries.has_eq_isSome_lookup, hlookup, ← Entries.has_eq_isSome_lookup]
    exact h.childless
  distinct := hdistinct

/-- The tokens that come back, given that each does. -/
theorem exists_sameTokens {ts : List Token}
    (h : ∀ t ∈ ts, ∃ t', tokenOfElement t.toElement = .ok t' ∧ t.Same t' ∧ t'.IsOpen) :
    ∃ ts', tokensOfElements (elementsOf ts) = .ok ts' ∧ SameTokens ts ts' ∧
      ∀ t' ∈ ts', t'.IsOpen := by
  induction ts with
  | nil => exact ⟨[], rfl, trivial, List.forall_mem_nil _⟩
  | cons t ts ih =>
    obtain ⟨t', ht, hsame, hopen⟩ := h t List.mem_cons_self
    obtain ⟨ts', hts, hsames, hopens⟩ := ih fun u hu => h u (List.mem_cons_of_mem _ hu)
    refine ⟨t' :: ts', ?_, ⟨hsame, hsames⟩, List.forall_mem_cons.mpr ⟨hopen, hopens⟩⟩
    rw [elementsOf, tokensOfElements, ht, Except.ok_bind, hts, Except.ok_bind]
    rfl

/-- An open token comes back from its element. -/
theorem exists_same_of_open {t : Token} (h : t.IsOpen) :
    ∃ t', tokenOfElement t.toElement = .ok t' ∧ t.Same t' ∧ t'.IsOpen := by
  induction h with
  | @mk fields children here below ih =>
    obtain ⟨type, value, attributes, helement, htype, hraw, hattrs⟩ :=
      toElement_of_open children here
    have hlookup := lookup_fieldsOfElement children here htype hraw hattrs
    have hchildless : Entries.has (fieldsOfElement type value attributes
        (Token.mk fields children).extra) "children" = false :=
      not_has_children_fieldsOfElement (isExtra_extra _)
    -- the fields read back are found as the old ones were, but perhaps in another order
    have hopen := here.of_lookup hlookup (nodup_fieldsOfElement ..)
    rw [helement, tokenOfElement, tokenFields_element, Except.ok_bind,
      tokensOfChildren_elementFields]
    cases children with
    | none =>
      refine ⟨_, rfl, ?_⟩
      rw [tokenOfEntries_of_not_has none _ [] hchildless, List.nil_append]
      exact ⟨⟨hlookup, trivial⟩, .mk hopen fun _ => nofun⟩
    | some ts =>
      obtain ⟨ts', hts, hsames, hopens⟩ := exists_sameTokens (ih ts rfl)
      refine ⟨.mk _ (some ts'), ?_, ⟨hlookup, hsames⟩, .mk hopen fun _ heq => ?_⟩
      · rw [childrenValue, tokensOfList, hts, Except.ok_bind]
        exact congrArg (fun es => Except.ok (Token.mk es (some ts')))
          (Entries.erase_of_not_has hchildless)
      · exact Option.some.inj heq ▸ hopens

/-- Regular tokens come back from their elements. -/
theorem exists_same_of_allRegular {ts : List Token} (h : AllRegular ts) :
    ∃ ts', tokensOfElements (elementsOf ts) = .ok ts' ∧ SameTokens ts ts' := by
  obtain ⟨ts', hts, hsame, -⟩ := exists_sameTokens fun t ht =>
    exists_same_of_open ((h t ht).mono fun _ => RegularFields.isOpen)
  exact ⟨ts', hts, hsame⟩

/-- The tokens of a tree are those of its children. -/
theorem tokensOfTree_of_children {k : Kind} {fields : Entries Value} {children : List Value}
    (h : (Value.node k fields).attribute? "children" = some (.list children)) :
    tokensOfTree (.node k fields) = tokensOfElements children := by
  rw [tokensOfTree, h]
  · cases children <;> rfl
  · exact nofun

end NotebookTree.Markdown
