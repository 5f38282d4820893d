/-! # Rosters

A roster is a list of members of which no two have the same key. Members stand in the order in which
their keys were first entered: entering a member under a key that is already present replaces the
member in its place, and removing a member leaves the others in their order. Both give back the member
that the roster has no longer.
-/

set_option autoImplicit false

namespace StreamQuery

universe u v w

/-- Members in order of entry, at most one for each key. -/
@[ext] structure Roster {κ : Type u} {α : Type v} (key : α → κ) where
  toList : List α
  nodup_keys : (toList.map key).Nodup

namespace Roster

variable {κ : Type u} {α : Type v} {key : α → κ}

def empty : Roster key where
  toList := []
  nodup_keys := List.nodup_nil

@[simp] theorem toList_empty : (empty : Roster key).toList = [] := rfl

def keys (roster : Roster key) : List κ :=
  roster.toList.map key

def isEmpty (roster : Roster key) : Bool :=
  roster.toList.isEmpty

def size (roster : Roster key) : Nat :=
  roster.toList.length

variable [DecidableEq κ]

def get? (roster : Roster key) (k : κ) : Option α :=
  roster.toList.find? fun member => key member = k

/-! ## Entering and removing -/

/-- A list of members with one more entered, in place of the one with its key or else at the end, and the
member whose place it takes. -/
def putIn (key : α → κ) (member : α) : List α → List α × Option α
  | [] => ([member], none)
  | first :: rest =>
    if key first = key member then (member :: rest, some first)
    else (putIn key member rest).map (first :: ·) id

/-- A list of members without the one that has a key, and this member. -/
def removeFrom (key : α → κ) (k : κ) : List α → List α × Option α
  | [] => ([], none)
  | first :: rest =>
    if key first = k then (rest, some first)
    else (removeFrom key k rest).map (first :: ·) id

theorem map_key_putIn (member : α) (members : List α) :
    (putIn key member members).1.map key =
      if key member ∈ members.map key then members.map key else members.map key ++ [key member] := by
  induction members with
  | nil => rfl
  | cons first rest ih =>
    by_cases same : key first = key member
    · simp [putIn, same]
    · rw [putIn, if_neg same, Prod.map_fst, List.map_cons, ih, List.map_cons]
      simp only [List.mem_cons, Ne.symm same, false_or]
      split
      · rfl
      · rfl

theorem putIn_of_notMem {member : α} {members : List α} (absent : key member ∉ members.map key) :
    putIn key member members = (members ++ [member], none) := by
  induction members with
  | nil => rfl
  | cons first rest ih =>
    rw [List.map_cons, List.mem_cons, not_or] at absent
    rw [putIn, if_neg (Ne.symm absent.1), ih absent.2]
    rfl

theorem find?_putIn (member : α) (members : List α) (k : κ) :
    ((putIn key member members).1.find? fun other => key other = k) =
      if k = key member then some member else members.find? fun other => key other = k := by
  induction members with
  | nil => simp [putIn, List.find?_singleton, eq_comm]
  | cons first rest ih =>
    by_cases same : key first = key member
    · by_cases wanted : k = key member
      · simp [putIn, same, wanted]
      · simp [putIn, same, wanted, Ne.symm wanted]
    · rw [putIn, if_neg same, Prod.map_fst, List.find?_cons, ih]
      by_cases hit : key first = k
      · subst hit
        simp [same]
      · simp [hit]

theorem putIn_snd (member : α) (members : List α) :
    (putIn key member members).2 = members.find? fun other => key other = key member := by
  induction members with
  | nil => rfl
  | cons first rest ih =>
    by_cases same : key first = key member
    · simp [putIn, same]
    · simp [putIn, same, ih]

theorem removeFrom_snd (k : κ) (members : List α) :
    (removeFrom key k members).2 = members.find? fun member => key member = k := by
  induction members with
  | nil => rfl
  | cons first rest ih =>
    by_cases hit : key first = k
    · simp [removeFrom, hit]
    · simp [removeFrom, hit, ih]

theorem removeFrom_sublist (k : κ) (members : List α) :
    (removeFrom key k members).1.Sublist members := by
  induction members with
  | nil => exact .slnil
  | cons first rest ih =>
    unfold removeFrom
    split
    · exact List.sublist_cons_self first rest
    · exact ih.cons_cons first

theorem removeFrom_eq_filter {k : κ} {members : List α} (distinct : (members.map key).Nodup) :
    (removeFrom key k members).1 = members.filter fun member => key member ≠ k := by
  induction members with
  | nil => rfl
  | cons first rest ih =>
    obtain ⟨absent, distinctRest⟩ := List.nodup_cons.mp distinct
    by_cases hit : key first = k
    · -- The search stops here, and behind this member no other has its key.
      have others : (rest.filter fun member => key member ≠ k) = rest := by
        rw [List.filter_eq_self]
        intro member isMember
        have different : key member ≠ k := fun equal =>
          absent (List.mem_map.mpr ⟨member, isMember, equal.trans hit.symm⟩)
        exact decide_eq_true different
      rw [removeFrom, if_pos hit, List.filter_cons_of_neg (by simpa using hit), others]
    · rw [removeFrom, if_neg hit, List.filter_cons_of_pos (by simpa using hit), ← ih distinctRest]
      rfl

theorem nodup_keys_putIn (roster : Roster key) (member : α) :
    ((putIn key member roster.toList).1.map key).Nodup := by
  rw [map_key_putIn]
  split
  · exact roster.nodup_keys
  · rename_i absent
    rw [List.nodup_append]
    refine ⟨roster.nodup_keys, by simp, ?_⟩
    intro present isPresent last isLast equal
    rw [List.mem_singleton] at isLast
    subst equal isLast
    exact absent isPresent

def put (roster : Roster key) (member : α) : Roster key × Option α :=
  let entered := putIn key member roster.toList
  (⟨entered.1, roster.nodup_keys_putIn member⟩, entered.2)

def remove (roster : Roster key) (k : κ) : Roster key × Option α :=
  let kept := removeFrom key k roster.toList
  (⟨kept.1, roster.nodup_keys.sublist ((removeFrom_sublist k roster.toList).map key)⟩, kept.2)

def insert (roster : Roster key) (member : α) : Roster key :=
  (roster.put member).1

def erase (roster : Roster key) (k : κ) : Roster key :=
  (roster.remove k).1

theorem put_snd (roster : Roster key) (member : α) :
    (roster.put member).2 = roster.get? (key member) :=
  putIn_snd member roster.toList

theorem remove_snd (roster : Roster key) (k : κ) : (roster.remove k).2 = roster.get? k :=
  removeFrom_snd k roster.toList

def ofList (members : List α) : Roster key :=
  members.foldl insert empty

theorem keys_insert (roster : Roster key) (member : α) :
    (roster.insert member).keys =
      if key member ∈ roster.keys then roster.keys else roster.keys ++ [key member] :=
  map_key_putIn member roster.toList

@[simp] theorem toList_erase (roster : Roster key) (k : κ) :
    (roster.erase k).toList = roster.toList.filter fun member => key member ≠ k :=
  removeFrom_eq_filter roster.nodup_keys

theorem keys_erase (roster : Roster key) (k : κ) :
    (roster.erase k).keys = roster.keys.filter fun other => other ≠ k := by
  simp only [keys, toList_erase, List.filter_map]
  rfl

theorem get?_insert (roster : Roster key) (member : α) (k : κ) :
    (roster.insert member).get? k = if k = key member then some member else roster.get? k :=
  find?_putIn member roster.toList k

theorem get?_erase (roster : Roster key) (k l : κ) :
    (roster.erase k).get? l = if l = k then none else roster.get? l := by
  simp only [get?, toList_erase, List.find?_filter]
  split
  · rename_i equal
    subst equal
    rw [List.find?_eq_none]
    intro member _
    simp
  · rename_i different
    congr 1
    funext member
    by_cases hit : key member = l
    · subst hit
      simp [different]
    · simp [hit]

theorem key_of_get? {roster : Roster key} {k : κ} {member : α}
    (found : roster.get? k = some member) : key member = k := by
  simpa using List.find?_some found

theorem filter_key_of_mem {members : List α} {member : α} (distinct : (members.map key).Nodup)
    (isMember : member ∈ members) :
    (members.filter fun other => key other = key member) = [member] := by
  induction members with
  | nil => cases isMember
  | cons first rest ih =>
    rw [List.map_cons, List.nodup_cons] at distinct
    rcases List.mem_cons.mp isMember with rfl | later
    · have others : (rest.filter fun other => key other = key member) = [] := by
        rw [List.filter_eq_nil_iff]
        intro other isOther equal
        exact distinct.1 (List.mem_map.mpr ⟨other, isOther, by simpa using equal⟩)
      rw [List.filter_cons_of_pos (by simp), others]
    · have different : key first ≠ key member := by
        intro equal
        exact distinct.1 (List.mem_map.mpr ⟨member, later, equal.symm⟩)
      rw [List.filter_cons_of_neg (by simpa using different)]
      exact ih distinct.2 later

theorem find?_key_of_mem {members : List α} {member : α} (distinct : (members.map key).Nodup)
    (isMember : member ∈ members) :
    (members.find? fun other => key other = key member) = some member := by
  rw [← List.head?_filter, filter_key_of_mem distinct isMember, List.head?_singleton]

theorem get?_eq_some_iff {roster : Roster key} {k : κ} {member : α} :
    roster.get? k = some member ↔ member ∈ roster.toList ∧ key member = k := by
  constructor
  · intro found
    exact ⟨List.mem_of_find?_eq_some found, key_of_get? found⟩
  · rintro ⟨isMember, rfl⟩
    exact find?_key_of_mem roster.nodup_keys isMember

theorem toList_foldl_insert {members : List α} {roster : Roster key}
    (distinct : ((roster.toList ++ members).map key).Nodup) :
    (members.foldl insert roster).toList = roster.toList ++ members := by
  induction members generalizing roster with
  | nil => simp
  | cons member rest ih =>
    have absent : key member ∉ roster.toList.map key := by
      rw [List.map_append, List.map_cons, List.nodup_append] at distinct
      intro present
      exact distinct.2.2 _ present _ List.mem_cons_self rfl
    have entered : (roster.insert member).toList = roster.toList ++ [member] :=
      congrArg Prod.fst (putIn_of_notMem absent)
    have assembled : (roster.insert member).toList ++ rest = roster.toList ++ member :: rest := by
      rw [entered, List.append_assoc, List.singleton_append]
    rw [List.foldl_cons, ih (by rw [assembled]; exact distinct), assembled]

theorem toList_ofList {members : List α} (distinct : (members.map key).Nodup) :
    (ofList members : Roster key).toList = members :=
  toList_foldl_insert (by simpa using distinct)

/-! ## Rosters made from a list -/

theorem eraseDups_of_nodup {keys : List κ} (distinct : keys.Nodup) : keys.eraseDups = keys := by
  induction keys with
  | nil => rfl
  | cons first rest ih =>
    obtain ⟨absent, distinctRest⟩ := List.nodup_cons.mp distinct
    have others : (rest.filter fun other => !other == first) = rest := by
      rw [List.filter_eq_self]
      intro other isOther
      have different : other ≠ first := fun equal => absent (equal ▸ isOther)
      simpa using different
    rw [List.eraseDups_cons, others, ih distinctRest]

theorem keys_foldl_insert (members : List α) (roster : Roster key) :
    (members.foldl insert roster).keys = (roster.keys ++ members.map key).eraseDups := by
  induction members generalizing roster with
  | nil =>
    rw [List.map_nil, List.append_nil]
    exact (eraseDups_of_nodup roster.nodup_keys).symm
  | cons member rest ih =>
    rw [List.foldl_cons, ih, keys_insert, List.map_cons]
    split
    · rename_i present
      rw [List.eraseDups_append, List.eraseDups_append, List.cons_removeAll]
      simp [present]
    · rw [List.append_assoc, List.singleton_append]

/-- If every member that is entered is found in place of an earlier one with its key, then of several
members with one key the last is found. -/
theorem get?_foldl {σ : Type w} {enter : σ → α → σ} {get? : σ → κ → Option α}
    (get?_enter : ∀ store member k,
      get? (enter store member) k = if k = key member then some member else get? store k)
    (members : List α) (store : σ) (k : κ) :
    get? (members.foldl enter store) k =
      (members.filter fun member => key member = k).getLast?.or (get? store k) := by
  induction members generalizing store with
  | nil => rfl
  | cons member rest ih =>
    rw [List.foldl_cons, ih, get?_enter]
    by_cases equal : k = key member
    · rw [List.filter_cons_of_pos (by simpa using equal.symm), List.getLast?_cons, if_pos equal]
      cases (rest.filter fun member => key member = k).getLast? <;> rfl
    · rw [List.filter_cons_of_neg (by simpa using Ne.symm equal), if_neg equal]

theorem keys_ofList (members : List α) :
    (ofList members : Roster key).keys = (members.map key).eraseDups :=
  keys_foldl_insert members empty

theorem get?_ofList (members : List α) (k : κ) :
    (ofList members : Roster key).get? k =
      (members.filter fun member => key member = k).getLast? := by
  rw [ofList, get?_foldl get?_insert]
  exact Option.or_none

/-! ## Rosters under a map of their members

`f` maps members and `g` maps their keys, one to one. -/

section Mapped

variable {f : α → α} {g : κ → κ}

theorem putIn_map (injective : Function.Injective g)
    (mapped : ∀ member, key (f member) = g (key member)) (member : α) (members : List α) :
    (putIn key (f member) (members.map f)).1 = (putIn key member members).1.map f := by
  induction members with
  | nil => rfl
  | cons first rest ih =>
    have replaced : key (f first) = key (f member) ↔ key first = key member := by
      rw [mapped, mapped, injective.eq_iff]
    by_cases same : key first = key member
    · rw [List.map_cons, putIn, if_pos (replaced.mpr same), putIn, if_pos same]
      rfl
    · rw [List.map_cons, putIn, if_neg (mt replaced.mp same), putIn, if_neg same, Prod.map_fst, ih]
      rfl

theorem toList_foldl_insert_map (injective : Function.Injective g)
    (mapped : ∀ member, key (f member) = g (key member)) (members : List α)
    {first second : Roster key} (same : second.toList = first.toList.map f) :
    ((members.map f).foldl insert second).toList = (members.foldl insert first).toList.map f := by
  induction members generalizing first second with
  | nil => exact same
  | cons member rest ih =>
    rw [List.map_cons, List.foldl_cons, List.foldl_cons]
    apply ih
    change (putIn key (f member) second.toList).1 = (putIn key member first.toList).1.map f
    rw [same, putIn_map injective mapped]

theorem get?_map {first second : Roster key} (injective : Function.Injective g)
    (mapped : ∀ member, key (f member) = g (key member))
    (same : second.toList = first.toList.map f) (k : κ) :
    second.get? (g k) = (first.get? k).map f := by
  unfold get?
  rw [same, List.find?_map]
  congr 2
  funext member
  simp only [Function.comp_apply, mapped, injective.eq_iff]

end Mapped

theorem get?_isSome_iff {roster : Roster key} {k : κ} :
    (roster.get? k).isSome ↔ k ∈ roster.keys := by
  simp [get?, keys]

end Roster

end StreamQuery
