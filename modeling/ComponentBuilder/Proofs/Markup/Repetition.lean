import ComponentBuilder.Proofs.Markup.AttributeItem
import Mathlib.Logic.Nontrivial.Basic

/-!
# Attributes that are given several times

An attribute list that was read holds each key once, in the place where it came first and with the value
that it was given last.  A named attribute sets its name and a spread the names of its object, so the place of
a key counts where a spread sets the same name: what is read sets the same for all objects exactly when no
key encloses another one and a spread is among the two.
-/

namespace ComponentBuilder.Markup.AttributeList

open Text Scan

variable {α : Type}

/-! ## Settings in a row -/

/-- What some settings give together, a later one going before the earlier ones. -/
def together (settings : List (String → Option α)) : String → Option α :=
  settings.foldl (fun found setting name => (setting name).or (found name)) fun _ => none

theorem together_eq_findSome? (settings : List (String → Option α)) (name : String) :
    together settings name = settings.reverse.findSome? (· name) := by
  induction settings using List.reverseRecOn with
  | nil => rfl
  | append_singleton settings setting ih =>
      rw [List.reverse_concat, List.findSome?_cons, ← ih, together, List.foldl_concat]
      cases setting name <;> rfl

theorem together_cons (setting : String → Option α) (settings : List (String → Option α)) (name : String) :
    together (setting :: settings) name = (together settings name).or (setting name) := by
  rw [together_eq_findSome?, together_eq_findSome?, List.reverse_cons, List.findSome?_append,
    List.findSome?_singleton]

/-! ## Keys in a row -/

theorem takeWhile_ne_append_cons {front back : List String} {key : String} (h : key ∉ front) :
    (front ++ key :: back).takeWhile (· != key) = front := by
  rw [List.takeWhile_append_of_pos (bne_of_not_mem h), List.takeWhile_cons_of_neg (by simp), List.append_nil]

theorem mem_takeWhile_ne_of_append {front back : List String} {a b : String} (hne : a ≠ b) (h : b ∉ front) :
    a ∈ (front ++ a :: back).takeWhile (· != b) := by
  rw [List.takeWhile_append_of_pos (bne_of_not_mem h), List.takeWhile_cons_of_pos (by simpa using hne)]
  simp

theorem exists_of_mem_takeWhile_ne {keys : List String} {a b : String} (h : a ∈ keys.takeWhile (· != b)) :
    a ≠ b ∧ ∃ front back, keys = front ++ a :: back ∧ a ∉ front ∧ b ∉ front := by
  have hne : a ≠ b := by simpa using List.mem_takeWhile_imp h
  obtain ⟨front, middle, hsplit, hfirst⟩ := List.eq_append_cons_of_mem h
  refine ⟨hne, front, middle ++ keys.dropWhile (· != b), ?_, hfirst, ?_⟩
  · rw [← List.cons_append, ← List.append_assoc, ← hsplit, List.takeWhile_append_dropWhile]
  · intro hmem
    have hb : b ∈ keys.takeWhile (· != b) := by rw [hsplit]; simp [hmem]
    simpa using List.mem_takeWhile_imp hb

/-- A key stands in front of every place of another one, and again behind all of them. -/
structure Encloses (keys : List String) (a b : String) : Prop where
  mem : b ∈ keys
  front : a ∈ keys.takeWhile (· != b)
  back : a ∈ keys.reverse.takeWhile (· != b)

theorem Encloses.mem_left {keys : List String} {a b : String} (h : Encloses keys a b) : a ∈ keys :=
  (List.takeWhile_prefix _).subset h.front

instance (keys : List String) (a b : String) : Decidable (Encloses keys a b) :=
  decidable_of_iff (b ∈ keys ∧ a ∈ keys.takeWhile (· != b) ∧ a ∈ keys.reverse.takeWhile (· != b))
    ⟨fun h => ⟨h.1, h.2.1, h.2.2⟩, fun h => ⟨h.mem, h.front, h.back⟩⟩

/-! ## Keys that were given several times -/

theorem mem_keys_setAll {attributes : Attributes} {entries : List (String × AttributeValue)} {key : String} :
    key ∈ (setAll attributes entries).keys ↔ key ∈ attributes.keys ∨ key ∈ entries.map Prod.fst := by
  induction entries generalizing attributes with
  | nil => simp [setAll]
  | cons entry entries ih =>
      have hset : key ∈ (attributes.set entry.1 entry.2).keys ↔ key ∈ attributes.keys ∨ key = entry.1 := by
        rw [Keyed.keys_set]
        split_ifs with hmem
        · constructor
          · exact .inl
          · rintro (h | rfl)
            · exact h
            · exact hmem
        · rw [List.mem_append, List.mem_singleton]
      rw [setAll_cons, ih, hset, List.map_cons, List.mem_cons, or_assoc]

/-- A key stands before another one where it was given before it for the first time. -/
theorem mem_takeWhile_keys_setAll {attributes : Attributes} {entries : List (String × AttributeValue)}
    {a b : String} :
    a ∈ (setAll attributes entries).keys.takeWhile (· != b) ↔
      a ∈ (attributes.keys ++ entries.map Prod.fst).takeWhile (· != b) := by
  induction entries generalizing attributes with
  | nil => simp [setAll]
  | cons entry entries ih =>
      rw [setAll_cons, ih, Keyed.keys_set, List.map_cons]
      split_ifs with hmem
      · -- A key that is there already stands before whatever it is given in front of now.
        by_cases hb : b ∈ attributes.keys
        · obtain ⟨front, back, hsplit, hfront⟩ := List.eq_append_cons_of_mem hb
          rw [hsplit, List.append_assoc, List.append_assoc, List.cons_append, List.cons_append,
            takeWhile_ne_append_cons hfront, takeWhile_ne_append_cons hfront]
        · have hall := bne_of_not_mem hb
          have hentry := hall entry.1 hmem
          rw [List.takeWhile_append_of_pos hall, List.takeWhile_append_of_pos hall]
          simp only [List.takeWhile_cons, hentry, if_true, List.mem_append, List.mem_cons]
          constructor
          · exact Or.imp_right .inr
          · rintro (h | rfl | h)
            · exact .inl h
            · exact .inl hmem
            · exact .inr h
      · rw [List.append_assoc, List.singleton_append]

theorem get?_setAll_of_not_mem {attributes : Attributes} {entries : List (String × AttributeValue)} {key : String}
    (h : key ∉ entries.map Prod.fst) : (setAll attributes entries).get? key = attributes.get? key := by
  induction entries generalizing attributes with
  | nil => rfl
  | cons entry entries ih =>
      rw [List.map_cons, List.mem_cons, not_or] at h
      rw [setAll_cons, ih h.2, Keyed.get?_set, if_neg h.1]

/-- A key has the value that it was given last. -/
theorem get?_setAll_of_last {attributes : Attributes} {front back : List (String × AttributeValue)}
    {entry : String × AttributeValue} (h : entry.1 ∉ back.map Prod.fst) :
    (setAll attributes (front ++ entry :: back)).get? entry.1 = some entry.2 := by
  have hsplit : setAll attributes (front ++ entry :: back) =
      setAll ((setAll attributes front).set entry.1 entry.2) back := by
    rw [setAll, List.foldl_append, List.foldl_cons]
    rfl
  rw [hsplit, get?_setAll_of_not_mem h, Keyed.get?_set, if_pos rfl]

/-! ## What attributes set -/

/-- Whether the key of an attribute is a spread. -/
def isSpread (key : String) : Bool :=
  key.toList.head? == some '\x7b'

variable (meaning : AttributeValue → α) (spreads : String → String → Option α)

/-- What an attribute sets: a spread the names of its object, any other its own name. -/
def sets (entry : String × AttributeValue) (name : String) : Option α :=
  if isSpread entry.1 then spreads entry.1 name
  else if entry.1 = name then some (meaning entry.2) else none

/-- What a list of attributes sets. -/
def props (entries : List (String × AttributeValue)) : String → Option α :=
  together (entries.map (sets meaning spreads))

/-- An attribute is the last one that sets a name. -/
structure SetsLast (name : String) (entries front : List (String × AttributeValue))
    (entry : String × AttributeValue) (back : List (String × AttributeValue)) : Prop where
  split : entries = front ++ entry :: back
  given : sets meaning spreads entry name ≠ none
  unset : ∀ later ∈ back, sets meaning spreads later name = none

variable {meaning spreads} {name : String}

/-- Whether an attribute sets a name is a matter of its key. -/
theorem sets_eq_none_of_key {entry other : String × AttributeValue} (hkey : entry.1 = other.1)
    (h : sets meaning spreads other name = none) : sets meaning spreads entry name = none := by
  rw [sets, ← hkey] at h
  rw [sets]
  split_ifs at h ⊢ with hspread hname
  · exact h
  · rfl

theorem isSpread_of_sets {entry other : String × AttributeValue} (hne : entry.1 ≠ other.1)
    (hentry : sets meaning spreads entry name ≠ none) (hother : sets meaning spreads other name ≠ none) :
    isSpread entry.1 = true ∨ isSpread other.1 = true := by
  by_contra hspreads
  rw [not_or] at hspreads
  rw [sets, if_neg hspreads.1] at hentry
  rw [sets, if_neg hspreads.2] at hother
  simp only [ne_eq, ite_eq_right_iff, reduceCtorEq, imp_false, not_not] at hentry hother
  exact hne (hentry.trans hother.symm)

/-! ## The last attribute that sets a name -/

section SetsLast

variable {entries front back : List (String × AttributeValue)} {entry other : String × AttributeValue}

theorem props_apply (entries : List (String × AttributeValue)) (name : String) :
    props meaning spreads entries name = entries.reverse.findSome? (sets meaning spreads · name) := by
  rw [props, together_eq_findSome?, ← List.map_reverse, List.findSome?_map]
  rfl

theorem props_eq_none_iff : props meaning spreads entries name = none ↔
    ∀ entry ∈ entries, sets meaning spreads entry name = none := by
  rw [props_apply, List.findSome?_eq_none_iff]
  simp

theorem SetsLast.props_eq (h : SetsLast meaning spreads name entries front entry back) :
    props meaning spreads entries name = sets meaning spreads entry name := by
  obtain ⟨value, hvalue⟩ := Option.ne_none_iff_exists'.1 h.given
  rw [props_apply, hvalue, List.findSome?_eq_some_iff]
  refine ⟨back.reverse, entry, front.reverse, ?_, hvalue, fun other hother => h.unset other (by simpa using hother)⟩
  rw [h.split]
  simp

theorem exists_setsLast (h : props meaning spreads entries name ≠ none) :
    ∃ front entry back, SetsLast meaning spreads name entries front entry back := by
  obtain ⟨value, hvalue⟩ := Option.ne_none_iff_exists'.1 h
  rw [props_apply, List.findSome?_eq_some_iff] at hvalue
  obtain ⟨back, entry, front, hsplit, hsets, hnone⟩ := hvalue
  refine ⟨front.reverse, entry, back.reverse, ?_, by simp [hsets], ?_⟩
  · rw [← List.reverse_reverse entries, hsplit]
    simp
  · exact fun other hother => hnone other (by simpa using hother)

theorem SetsLast.not_mem (h : SetsLast meaning spreads name entries front entry back)
    (hother : sets meaning spreads other name ≠ none) : other.1 ∉ back.map Prod.fst := by
  rw [List.mem_map]
  rintro ⟨later, hlater, hkey⟩
  exact hother (sets_eq_none_of_key hkey.symm (h.unset later hlater))

/-- The last key that sets a name stands behind all places of another key that sets it. -/
theorem SetsLast.mem_back (h : SetsLast meaning spreads name entries front entry back) (hne : entry.1 ≠ other.1)
    (hother : sets meaning spreads other name ≠ none) :
    entry.1 ∈ (entries.map Prod.fst).reverse.takeWhile (· != other.1) := by
  have hback : other.1 ∉ (back.map Prod.fst).reverse := by
    rw [List.mem_reverse]
    exact h.not_mem hother
  have hmem := @mem_takeWhile_ne_of_append _ (front.map Prod.fst).reverse _ _ hne hback
  rw [h.split]
  simpa using hmem

/-- Where each key stands once, another key that sets a name stands in front of the last one. -/
theorem SetsLast.mem_front (h : SetsLast meaning spreads name entries front entry back)
    (hdistinct : (entries.map Prod.fst).Nodup) (hne : entry.1 ≠ other.1)
    (hother : sets meaning spreads other name ≠ none) (hmem : other.1 ∈ entries.map Prod.fst) :
    other.1 ∈ (entries.map Prod.fst).takeWhile (· != entry.1) := by
  rw [h.split, List.map_append, List.map_cons] at hdistinct hmem ⊢
  have hfirst : entry.1 ∉ front.map Prod.fst := fun hfront =>
    (List.nodup_append.1 hdistinct).2.2 _ hfront _ List.mem_cons_self rfl
  rw [takeWhile_ne_append_cons hfirst]
  rcases List.mem_append.1 hmem with hfront | hrest
  · exact hfront
  · rcases List.mem_cons.1 hrest with hsame | hback
    · exact absurd hsame.symm hne
    · exact absurd hback (h.not_mem hother)

end SetsLast

/-! ## What is read -/

section Reading

variable {entries : List (String × AttributeValue)}

theorem mem_keys_read {key : String} : key ∈ (setAll .empty entries).keys ↔ key ∈ entries.map Prod.fst := by
  rw [mem_keys_setAll]
  exact or_iff_right (by simp [Keyed.keys, Keyed.empty])

theorem mem_takeWhile_keys_read {a b : String} :
    a ∈ (setAll .empty entries).keys.takeWhile (· != b) ↔ a ∈ (entries.map Prod.fst).takeWhile (· != b) :=
  mem_takeWhile_keys_setAll

theorem props_read_ne_none_iff :
    props meaning spreads (setAll .empty entries).entries name ≠ none ↔
      props meaning spreads entries name ≠ none := by
  rw [not_iff_not, props_eq_none_iff, props_eq_none_iff]
  constructor
  · intro h entry hentry
    obtain ⟨other, hother, hkey⟩ := List.mem_map.1 (mem_keys_read.2 (List.mem_map_of_mem hentry))
    exact sets_eq_none_of_key hkey.symm (h other hother)
  · intro h entry hentry
    obtain ⟨other, hother, hkey⟩ := List.mem_map.1 (mem_keys_read.1 (List.mem_map_of_mem hentry))
    exact sets_eq_none_of_key hkey.symm (h other hother)

/-- What is read sets the same, unless one of two keys encloses the other and a spread is among them. -/
theorem props_read_eq
    (h : ∀ a b, Encloses (entries.map Prod.fst) a b → isSpread a = false ∧ isSpread b = false) :
    props meaning spreads (setAll .empty entries).entries = props meaning spreads entries := by
  funext name
  by_cases hnone : props meaning spreads entries name = none
  · rw [hnone]
    by_contra hsome
    exact props_read_ne_none_iff.1 hsome hnone
  · obtain ⟨front, last, back, hlast⟩ := exists_setsLast hnone
    obtain ⟨front', last', back', hlast'⟩ := exists_setsLast (props_read_ne_none_iff.2 hnone)
    have hmem' : last' ∈ (setAll .empty entries).entries := by simp [hlast'.split]
    have hkey : last.1 = last'.1 := by
      by_contra hne
      have hmem : last.1 ∈ (setAll .empty entries).keys := mem_keys_read.2 (by simp [hlast.split])
      have hencloses : Encloses (entries.map Prod.fst) last.1 last'.1 :=
        { mem := mem_keys_read.1 (List.mem_map_of_mem hmem')
          front := mem_takeWhile_keys_read.1
            (hlast'.mem_front (setAll .empty entries).distinct (Ne.symm hne) hlast.given hmem)
          back := hlast.mem_back hne hlast'.given }
      obtain ⟨hspread, hspread'⟩ := h _ _ hencloses
      rcases isSpread_of_sets hne hlast.given hlast'.given with htrue | htrue
      · simp [hspread] at htrue
      · simp [hspread'] at htrue
    have hvalue : last.2 = last'.2 := by
      have hget : (setAll .empty entries).get? last.1 = some last.2 := by
        rw [hlast.split]
        exact get?_setAll_of_last (hlast.not_mem hlast.given)
      rw [hkey, Keyed.get?, lookup_of_mem (setAll .empty entries).distinct hmem'] at hget
      exact (Option.some.inj hget).symm
    rw [hlast.props_eq, hlast'.props_eq, Prod.ext hkey hvalue]

end Reading

/-! ## Two keys in each other's place -/

section Rivals

variable {entries : List (String × AttributeValue)} {entry : String × AttributeValue} {a b : String} {va vb : α}

/-- A name that two keys set, when one of them is a spread. -/
def contested (a b : String) : String :=
  if isSpread a then b else a

/-- The objects of two spreads, each with a value of its own for the contested name. -/
def rivals (a b : String) (va vb : α) (key name : String) : Option α :=
  if name = contested a b then if key = a then some va else if key = b then some vb else none else none

theorem sets_rivals_left (ha : entry.1 = a) (hvalue : isSpread a = false → va = meaning entry.2) :
    sets meaning (rivals a b va vb) entry (contested a b) = some va := by
  cases hspread : isSpread a with
  | true => simp [sets, rivals, ha, hspread]
  | false => simp [sets, contested, ha, hspread, hvalue hspread]

theorem sets_rivals_right (hb : entry.1 = b) (hne : a ≠ b) (hspread : isSpread a = true ∨ isSpread b = true)
    (hvalue : isSpread b = false → vb = meaning entry.2) :
    sets meaning (rivals a b va vb) entry (contested a b) = some vb := by
  cases hspread' : isSpread b with
  | true => simp [sets, rivals, hb, hspread', hne.symm]
  | false =>
      have ha : isSpread a = true := hspread.resolve_right (by simp [hspread'])
      simp [sets, contested, hb, ha, hspread', hvalue hspread']

theorem sets_rivals_none (ha : entry.1 ≠ a) (hb : entry.1 ≠ b) :
    sets meaning (rivals a b va vb) entry (contested a b) = none := by
  have hother : entry.1 ≠ contested a b := by
    rw [contested]
    split_ifs
    · exact hb
    · exact ha
  simp [sets, rivals, ha, hb, hother]

/-- The last attribute with a key that stands behind all places of another one. -/
theorem exists_last_of_mem_back {entries : List (String × AttributeValue)}
    (h : a ∈ (entries.map Prod.fst).reverse.takeWhile (· != b)) :
    ∃ front entry back, entries = front ++ entry :: back ∧ entry.1 = a ∧
      ∀ later ∈ back, later.1 ≠ a ∧ later.1 ≠ b := by
  obtain ⟨-, front, back, hsplit, ha, hb⟩ := exists_of_mem_takeWhile_ne h
  have hkeys : entries.map Prod.fst = back.reverse ++ a :: front.reverse := by
    rw [← List.reverse_reverse (entries.map Prod.fst), hsplit]
    simp
  obtain ⟨before, rest, rfl, -, hrest⟩ := List.map_eq_append_iff.1 hkeys
  obtain ⟨entry, after, rfl, hentry, hafter⟩ := List.map_eq_cons_iff.1 hrest
  refine ⟨before, entry, after, rfl, hentry, fun later hlater => ?_⟩
  have hmem : later.1 ∈ front := by
    rw [← List.mem_reverse, ← hafter]
    exact List.mem_map_of_mem hlater
  exact ⟨fun heq => ha (heq ▸ hmem), fun heq => hb (heq ▸ hmem)⟩

/-- Where each key stands once, a key stands behind the one that stands in front of it. -/
theorem mem_back_of_mem_front {keys : List String} (hdistinct : keys.Nodup) (hmem : b ∈ keys)
    (h : a ∈ keys.takeWhile (· != b)) : b ∈ keys.reverse.takeWhile (· != a) := by
  obtain ⟨hne, front, back, rfl, -, hb⟩ := exists_of_mem_takeWhile_ne h
  have hback : b ∈ back := by
    rcases List.mem_append.1 hmem with hfront | hrest
    · exact absurd hfront hb
    · exact (List.mem_cons.1 hrest).resolve_left (Ne.symm hne)
  obtain ⟨middle, rest, rfl⟩ := List.append_of_mem hback
  have hlast : a ∉ rest.reverse := by
    rw [List.mem_reverse]
    intro hrest
    exact (List.nodup_cons.1 (List.nodup_append.1 hdistinct).2.1).1 (by simp [hrest])
  have hfound := @mem_takeWhile_ne_of_append rest.reverse (middle.reverse ++ a :: front.reverse) b a (Ne.symm hne) hlast
  simpa using hfound

/-- When a key encloses another one and a spread is among them, some objects tell the difference. -/
theorem exists_props_read_ne [Nontrivial α] (meaning : AttributeValue → α)
    (h : Encloses (entries.map Prod.fst) a b) (hspread : isSpread a = true ∨ isSpread b = true) :
    ∃ spreads, props meaning spreads (setAll .empty entries).entries ≠ props meaning spreads entries := by
  obtain ⟨hne, -⟩ := exists_of_mem_takeWhile_ne h.front
  obtain ⟨front, last, back, hsplit, hlast, hrest⟩ := exists_last_of_mem_back h.back
  have hread : b ∈ (setAll .empty entries).keys.reverse.takeWhile (· != a) :=
    mem_back_of_mem_front (setAll .empty entries).distinct (mem_keys_read.2 h.mem) (mem_takeWhile_keys_read.2 h.front)
  obtain ⟨front', last', back', hsplit', hlast', hrest'⟩ := exists_last_of_mem_back hread
  obtain ⟨va, vb, hvalues, hva, hvb⟩ : ∃ va vb : α, va ≠ vb ∧
      (isSpread a = false → va = meaning last.2) ∧ (isSpread b = false → vb = meaning last'.2) := by
    cases ha : isSpread a with
    | true =>
        obtain ⟨va, hva⟩ := exists_ne (meaning last'.2)
        exact ⟨va, meaning last'.2, hva, by simp, fun _ => rfl⟩
    | false =>
        obtain ⟨vb, hvb⟩ := exists_ne (meaning last.2)
        have hb : isSpread b = true := hspread.resolve_left (by simp [ha])
        exact ⟨meaning last.2, vb, Ne.symm hvb, fun _ => rfl, by simp [hb]⟩
  have hsource : SetsLast meaning (rivals a b va vb) (contested a b) entries front last back :=
    { split := hsplit
      given := by simp [sets_rivals_left hlast hva]
      unset := fun later hlater => sets_rivals_none (hrest later hlater).1 (hrest later hlater).2 }
  have hresult : SetsLast meaning (rivals a b va vb) (contested a b) (setAll .empty entries).entries
      front' last' back' :=
    { split := hsplit'
      given := by simp [sets_rivals_right hlast' hne hspread hvb]
      unset := fun later hlater => sets_rivals_none (hrest' later hlater).2 (hrest' later hlater).1 }
  refine ⟨rivals a b va vb, fun hsame => hvalues ?_⟩
  have hname := congrFun hsame (contested a b)
  rw [hresult.props_eq, hsource.props_eq, sets_rivals_right hlast' hne hspread hvb, sets_rivals_left hlast hva] at hname
  exact (Option.some.inj hname).symm

end Rivals

end ComponentBuilder.Markup.AttributeList
