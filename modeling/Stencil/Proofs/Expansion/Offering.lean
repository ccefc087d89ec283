import Stencil.Proofs.Expansion.Opening
import Stencil.Proofs.Markup.Attributes
import Stencil.Proofs.Markup.Braces
import Stencil.Proofs.Markup.Escaped
/-!
Attributes that carry a value. When an attribute of a custom element is a token and nothing else, the
text of the value is put into the attribute, and a value other than text waits beside the element under
the name of the attribute. Whichever it is, the instance in the place of the element gets the value.
-/
namespace Stencil
open Markup

namespace Text

theorem replaceText_self {p : String} (filled : p ≠ "") (new : String) :
    replaceText p new p = new := by
  rw [replaceText]
  split
  · next empty => exact absurd (String.toList_inj.mp empty) filled
  · next c cs own =>
    have whole : cut? (c :: cs) (c :: cs) = some ([], []) := by
      rw [cut?, show dropPrefix? (c :: cs) (c :: cs) = some [] by
        simpa using dropPrefix?_append (c :: cs) []]
    have nothing : replace c cs new.toList [] = [] := by
      rw [replace]
      split
      · rfl
      · next found => cases found
    rw [own, replace]
    split
    · next missing => rw [whole] at missing; cases missing
    · next before after found =>
      rw [whole] at found
      cases found
      rw [nothing, List.nil_append, List.append_nil, String.ofList_toList]

end Text

namespace Markup

namespace Token
variable {t : Token}

theorem exists_body {s : String} (mem : t ∈ ofText s) : ∃ body, t = ofBody body := by
  rw [ofText, ← map_cut, List.mem_map] at mem
  obtain ⟨⟨before, u⟩, here, rfl⟩ := mem
  obtain ⟨-, body, token, -⟩ := mem_cut here
  exact ⟨body, token⟩

/-- A token has no blanks at its ends. -/
theorem trimmed_raw (body : List Char) : Text.trimmed (ofBody body).raw = (ofBody body).raw := by
  have start : Text.isBlank '{' = false := by decide
  have stop : Text.isBlank '}' = false := by decide
  rw [Text.trimmed, toList_raw, Text.trim, Text.trimStart_of_not_blank start, Text.trimEnd]
  simp [stop, ofBody]

end Token

namespace Sites

variable {n : NodeId} {e : Element} {site : AttributeSite} {a : String} {t : Token}

theorem exists_attribute_of_mem (mem : site ∈ ofAttributes n e) :
    ∃ a ∈ e.attributes, a.name = site.name ∧ Token.ofText (a.value.getD "") = site.tokens := by
  obtain ⟨a, here, found⟩ := List.mem_filterMap.mp mem
  split at found
  · cases found
  · next tokens _ =>
    cases found
    exact ⟨a, here, rfl, rfl⟩

/-- An attribute that is a token is a site, and no other site has its name. -/
theorem ofAttributes_split (n : NodeId) (once : (e.attributes.map (·.name)).Nodup)
    (text : e.attr? a = some t.raw) (token : Token.ofText t.raw = [t]) :
    ∃ before after, ofAttributes n e = before ++ ⟨n, a, [t]⟩ :: after ∧
      (∀ site ∈ before, site.name ≠ a) ∧ ∀ site ∈ after, site.name ≠ a := by
  obtain ⟨b, found, written⟩ := Option.map_eq_some_iff.mp text
  rw [Element.attribute?] at found
  have own : b.name = a := by simpa using List.find?_some found
  obtain ⟨before, after, split⟩ := List.append_of_mem (List.mem_of_find?_eq_some found)
  rw [split, List.map_append, List.map_cons, own, List.nodup_middle, List.nodup_cons, List.mem_append,
    not_or] at once
  refine ⟨ofAttributes n ⟨e.name, before⟩, ofAttributes n ⟨e.name, after⟩, ?_,
    fun site here same => ?_, fun site here same => ?_⟩
  · rw [ofAttributes, split, List.filterMap_append, List.filterMap_cons, written, token, own]
    rfl
  · obtain ⟨c, listed, name, -⟩ := exists_attribute_of_mem here
    exact once.1.1 (List.mem_map.mpr ⟨c, listed, name.trans same⟩)
  · obtain ⟨c, listed, name, -⟩ := exists_attribute_of_mem here
    exact once.1.2 (List.mem_map.mpr ⟨c, listed, name.trans same⟩)

end Sites
end Markup

namespace Assoc
variable {α : Type} {es : Assoc α} {key : String} {value : α} {e : String × α}

theorem eq_or_mem_of_mem_put (mem : e ∈ put key value es) : e = (key, value) ∨ e ∈ es := by
  induction es with
  | nil => exact .inl (List.mem_singleton.mp mem)
  | cons f es ih =>
    obtain ⟨k, v⟩ := f
    rw [put] at mem
    split at mem
    · next own =>
      subst own
      exact (List.mem_cons.mp mem).imp_right (List.mem_cons_of_mem _)
    · rcases List.mem_cons.mp mem with rfl | mem
      · exact .inr List.mem_cons_self
      · exact (ih mem).imp_right (List.mem_cons_of_mem _)

theorem mem_put (es : Assoc α) (key : String) (value : α) : (key, value) ∈ put key value es := by
  induction es with
  | nil => exact List.mem_singleton_self _
  | cons f es ih =>
    obtain ⟨k, v⟩ := f
    rw [put]
    split
    · next own =>
      subst own
      exact List.mem_cons_self
    · exact List.mem_cons_of_mem _ ih

theorem mem_put_of_ne (apart : e.1 ≠ key) (mem : e ∈ es) : e ∈ put key value es := by
  induction es with
  | nil => cases mem
  | cons f es ih =>
    obtain ⟨k, v⟩ := f
    rw [put]
    split
    · next own =>
      rcases List.mem_cons.mp mem with rfl | mem
      · exact absurd own apart
      · exact List.mem_cons_of_mem _ mem
    · rcases List.mem_cons.mp mem with rfl | mem
      · exact List.mem_cons_self
      · exact List.mem_cons_of_mem _ (ih mem)

end Assoc

/-! ### Attributes that carry a value -/

namespace Sketch
variable {keep : Keep} {values : Values} {sites : List AttributeSite} {a : String} {v : Value}

theorem attr?_foldl_fillSite (apart : ∀ site ∈ sites, site.name ≠ a) (p : Element × Values) :
    (sites.foldl (fillSite keep values) p).1.attr? a = p.1.attr? a := by
  induction sites generalizing p with
  | nil => rfl
  | cons site sites ih =>
    obtain ⟨own, others⟩ := List.forall_mem_cons.mp apart
    rw [List.foldl_cons, ih others, fillSite]
    split
    · rfl
    · exact Element.attr?_setAttr_of_ne own

theorem isCustom_foldl_fillSite (sites : List AttributeSite) (p : Element × Values) :
    (sites.foldl (fillSite keep values) p).1.isCustom = p.1.isCustom := by
  induction sites generalizing p with
  | nil => rfl
  | cons site sites ih =>
    obtain ⟨e, rich⟩ := p
    rw [List.foldl_cons, ih, Element.isCustom, fillSite_name, Element.isCustom]

/-- A value that waits beside an element has been kept for an attribute of that name. -/
theorem mem_foldl_fillSite {p : Element × Values} {entry : String × Value}
    (mem : entry ∈ (sites.foldl (fillSite keep values) p).2) : entry ∈ p.2 ∨
      ∃ site ∈ sites, site.name = entry.1 ∧ ∃ text, keep values site.tokens text = some entry.2 := by
  induction sites generalizing p with
  | nil => exact .inl mem
  | cons site sites ih =>
    rw [List.foldl_cons] at mem
    rcases ih mem with mem | ⟨later, here, facts⟩
    · rw [fillSite] at mem
      split at mem
      · exact .inl mem
      · next text found =>
        dsimp only at mem
        split at mem
        · next v kept =>
          refine (Assoc.eq_or_mem_of_mem_put mem).symm.imp_right ?_
          rintro rfl
          refine ⟨site, List.mem_cons_self, rfl, text, ?_⟩
          split at kept
          · exact kept
          · cases kept
        · exact .inl mem
    · exact .inr ⟨later, List.mem_cons_of_mem _ here, facts⟩

theorem mem_foldl_fillSite_of_ne (apart : ∀ site ∈ sites, site.name ≠ a) {p : Element × Values}
    (mem : (a, v) ∈ p.2) : (a, v) ∈ (sites.foldl (fillSite keep values) p).2 := by
  induction sites generalizing p with
  | nil => exact mem
  | cons site sites ih =>
    obtain ⟨own, others⟩ := List.forall_mem_cons.mp apart
    refine ih others ?_
    rw [fillSite]
    split
    · exact mem
    · dsimp only
      split
      · exact Assoc.mem_put_of_ne (Ne.symm own) mem
      · exact mem

end Sketch

namespace Expansion
open Branch

/-- The name is put under the other one as well, without its hyphens. -/
def AliasOf (name other : String) : Prop := '-' ∈ name.toList ∧ Text.camelCase name = other

instance (name other : String) : Decidable (AliasOf name other) :=
  inferInstanceAs (Decidable (_ ∧ _))

/-- An attribute has the text of the value, and no other one comes under its name. -/
structure Offers (e : Element) (a : String) (v : Value) : Prop where
  once : (e.attributes.map (·.name)).Nodup
  text : e.attr? a = some (Entity.escapeAttribute v.plain)
  apart : ∀ name ∈ e.attributes.map (·.name), name ≠ a → ¬ AliasOf name a

/-- A value other than text waits under the name of its attribute, and nothing else comes under it. -/
structure Waits (rich : Values) (a : String) (v : Value) : Prop where
  same : ∀ entry ∈ rich, entry.1 = a → entry.2 = v
  waits : v.text? = none → (a, v) ∈ rich
  apart : ∀ entry ∈ rich, entry.1 ≠ a → ¬ AliasOf entry.1 a

section
variable {a : String} {v : Value} {values : Values}

theorem get?_putHostValue {entry : String × Value} (same : entry.1 = a → entry.2 = v)
    (apart : entry.1 ≠ a → ¬ AliasOf entry.1 a)
    (either : entry.1 = a ∨ Assoc.get? values a = some v) :
    Assoc.get? (putHostValue values entry) a = some v := by
  rw [putHostValue, Assoc.get?_put]
  split
  · next own => rw [same own.symm]
  · next other =>
    have before := either.resolve_left (Ne.symm other)
    split
    · next hyphen =>
      have free : a ≠ Text.camelCase entry.1 := fun own =>
        apart (Ne.symm other) ⟨by simpa using hyphen, own.symm⟩
      rw [Assoc.get?_put, if_neg free, before]
    · exact before

/-- Where every entry of a name has the same value, and nothing is an alias of the name, the name has
the value in the end. -/
theorem get?_foldl_putHostValue {entries : Values}
    (same : ∀ entry ∈ entries, entry.1 = a → entry.2 = v)
    (apart : ∀ entry ∈ entries, entry.1 ≠ a → ¬ AliasOf entry.1 a)
    (either : (∃ entry ∈ entries, entry.1 = a) ∨ Assoc.get? values a = some v) :
    Assoc.get? (entries.foldl putHostValue values) a = some v := by
  induction entries generalizing values with
  | nil => exact either.resolve_left fun ⟨_, mem, _⟩ => nomatch mem
  | cons entry entries ih =>
    rw [List.forall_mem_cons] at same apart
    rw [List.foldl_cons]
    rcases either with ⟨other, mem, own⟩ | bound
    · rcases List.mem_cons.mp mem with rfl | mem
      · exact ih same.2 apart.2 (.inr (get?_putHostValue same.1 apart.1 (.inl own)))
      · exact ih same.2 apart.2 (.inl ⟨other, mem, own⟩)
    · exact ih same.2 apart.2 (.inr (get?_putHostValue same.1 apart.1 (.inr bound)))

/-- An instance gets the value that an attribute of its host stands for. -/
theorem Offers.get? {e : Element} {rich : Values} (offers : Offers e a v) (waits : Waits rich a v)
    (document : Values) : Assoc.get? (Sketch.hostValues document e rich) a = some v := by
  obtain ⟨b, found, text⟩ := Option.map_eq_some_iff.mp offers.text
  rw [Element.attribute?] at found
  have own : b.name = a := by simpa using List.find?_some found
  have mem : b ∈ e.attributes := List.mem_of_find?_eq_some found
  rw [Sketch.hostValues, hostValues, List.foldl_append]
  cases kind : v.text? with
  | none =>
    exact get?_foldl_putHostValue waits.same waits.apart (.inl ⟨_, waits.waits kind, rfl⟩)
  | some s =>
    obtain rfl : v = .text s := by
      cases v with
      | text s' => cases kind; rfl
      | markup _ | component _ _ | list _ => cases kind
    -- what stands in the attribute is read back
    refine get?_foldl_putHostValue waits.same waits.apart (.inr ?_)
    refine get?_foldl_putHostValue (fun entry here name => ?_) (fun entry here => ?_)
      (.inl ⟨_, List.mem_map_of_mem mem, own⟩)
    · obtain ⟨c, listed, rfl⟩ := List.mem_map.mp here
      obtain rfl : c = b := List.inj_on_of_nodup_map offers.once listed mem (name.trans own.symm)
      dsimp only
      rw [text, Entity.decodeText_escapeAttribute]
      rfl
    · obtain ⟨c, listed, rfl⟩ := List.mem_map.mp here
      exact offers.apart _ (List.mem_map_of_mem listed)

theorem Offers.eraseAttr {e : Element} {name : String} (offers : Offers e a v) (other : name ≠ a) :
    Offers (e.eraseAttr name) a v where
  once := Element.nodup_eraseAttr offers.once
  text := by
    rw [Element.attr?_eraseAttr_of_ne other]
    exact offers.text
  apart kept mem := offers.apart kept ((List.eraseP_sublist.map _).subset mem)

theorem Offers.setAttr {e : Element} {name value : String} (offers : Offers e a v) (other : name ≠ a)
    (free : ¬ AliasOf name a) : Offers (e.setAttr name value) a v where
  once := Element.nodup_assign offers.once
  text := by
    rw [Element.attr?_setAttr_of_ne other]
    exact offers.text
  apart kept mem apart := by
    rcases Element.eq_or_mem_of_mem_assign mem with rfl | mem
    · exact free
    · exact offers.apart kept mem apart

/-- A token alone in its attribute gives way to the value of its name. -/
theorem fillAttribute_single {t : Token} (token : Token.ofText t.raw = [t])
    (bound : Assoc.get? values t.name = some v) :
    fillAttribute values [t] t.raw = Entity.escapeAttribute v.plain := by
  obtain ⟨body, own⟩ := Token.exists_body (t := t) (by rw [token]; exact List.mem_singleton_self t)
  have filled : t.raw ≠ "" := by
    rw [own, Token.ofBody]
    simp
  rw [fillAttribute, List.foldl_cons, List.foldl_nil, bound]
  exact Text.replaceText_self filled _

theorem richValue?_single {t : Token} (token : Token.ofText t.raw = [t])
    (bound : Assoc.get? values t.name = some v) (kind : v.text? = none) :
    richValue? values [t] t.raw = some v := by
  obtain ⟨body, own⟩ := Token.exists_body (t := t) (by rw [token]; exact List.mem_singleton_self t)
  have whole : Text.trimmed t.raw = t.raw := by
    rw [own]
    exact Token.trimmed_raw body
  rw [richValue?, if_pos whole, bound, Option.filter_some, kind]
  rfl

/-! ### Elements that hand a value on -/

/-- An element with values in its attributes, and what waits beside it. -/
def valued (values : Values) (n : NodeId) (e : Element) : Element × Values :=
  (Sites.ofAttributes n e).foldl (Sketch.fillSite richValue? values) (e, [])

/-- A custom element with an attribute that is a token and nothing else. No other attribute comes under
the name of this one, and expansion itself does not use it. -/
structure Hands (e : Element) (x a : String) : Prop where
  custom : e.isCustom
  token : ∃ t, e.attr? a = some t.raw ∧ Token.ofText t.raw = [t] ∧ t.name = x
  apart : ∀ name ∈ e.attributes.map (·.name), name ≠ a → ¬ AliasOf name a
  ref : a ≠ "ref"
  slot : a ≠ "slot"
  number : a ≠ refAttribute

variable {e : Element} {x : String}

theorem Hands.exists_attribute (hands : Hands e x a) : ∃ b ∈ e.attributes, b.name = a := by
  obtain ⟨t, text, -⟩ := hands.token
  obtain ⟨b, found, -⟩ := Option.map_eq_some_iff.mp text
  rw [Element.attribute?] at found
  exact ⟨b, List.mem_of_find?_eq_some found, by simpa using List.find?_some found⟩

/-- Every value that waits beside an element is one of those that its attributes stand for. -/
theorem exists_site_of_waiting {n : NodeId} {entry : String × Value}
    (mem : entry ∈ (valued values n e).2) : ∃ site ∈ Sites.ofAttributes n e, site.name = entry.1 ∧
      ∃ text, richValue? values site.tokens text = some entry.2 :=
  (Sketch.mem_foldl_fillSite mem).resolve_left List.not_mem_nil

/-- The text of the value is put into the attribute. -/
theorem Hands.offers (hands : Hands e x a) (once : (e.attributes.map (·.name)).Nodup) (n : NodeId)
    (bound : Assoc.get? values x = some v) : Offers (valued values n e).1 a v := by
  obtain ⟨t, text, token, rfl⟩ := hands.token
  obtain ⟨before, after, split, early, late⟩ := Sites.ofAttributes_split n once text token
  have names : (valued values n e).1.attributes.map (·.name) = e.attributes.map (·.name) :=
    Sketch.names_foldl_fillSite _ _
  refine ⟨by rwa [names], ?_, by rw [names]; exact hands.apart⟩
  rw [valued, split, List.foldl_append, List.foldl_cons, Sketch.attr?_foldl_fillSite late,
    Sketch.fillSite, Sketch.attr?_foldl_fillSite early, text]
  dsimp only
  rw [Element.attr?_setAttr, fillAttribute_single token bound]

/-- A value other than text waits beside the element. -/
theorem Hands.waits (hands : Hands e x a) (once : (e.attributes.map (·.name)).Nodup) (n : NodeId)
    (bound : Assoc.get? values x = some v) : Waits (valued values n e).2 a v := by
  obtain ⟨t, text, token, rfl⟩ := hands.token
  obtain ⟨before, after, split, early, late⟩ := Sites.ofAttributes_split n once text token
  refine ⟨fun entry mem same => ?_, fun kind => ?_, fun entry mem other => ?_⟩
  · obtain ⟨site, listed, name, text', rich⟩ := exists_site_of_waiting mem
    -- the site is that of the attribute
    have tokens : site.tokens = [t] := by
      have own := name.trans same
      rw [split, List.mem_append, List.mem_cons] at listed
      rcases listed with here | rfl | here
      · exact absurd own (early site here)
      · rfl
      · exact absurd own (late site here)
    rw [tokens, richValue?] at rich
    split at rich
    · obtain ⟨found, -⟩ := Option.filter_eq_some_iff.mp rich
      rw [bound] at found
      exact (Option.some.inj found).symm
    · cases rich
  · rw [valued, split, List.foldl_append, List.foldl_cons]
    refine Sketch.mem_foldl_fillSite_of_ne late ?_
    rw [Sketch.fillSite, Sketch.attr?_foldl_fillSite early, text]
    dsimp only
    rw [Sketch.isCustom_foldl_fillSite, hands.custom, if_pos rfl, richValue?_single token bound kind]
    exact Assoc.mem_put _ _ _
  · obtain ⟨site, listed, name, -⟩ := exists_site_of_waiting mem
    obtain ⟨b, there, name', -⟩ := Sites.exists_attribute_of_mem listed
    exact hands.apart _ (List.mem_map.mpr ⟨b, there, name'.trans name⟩) other

end

end Expansion
end Stencil
