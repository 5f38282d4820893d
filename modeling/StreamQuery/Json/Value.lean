import StreamQuery.Double
import StreamQuery.Roster
import StreamQuery.Text.Order

/-! # JSON values

Whole numbers and numbers with a fraction or an exponent are kept apart: `4` and `4.0` are different
values. An object in canonical form has one member for each of its keys, in ascending order of the
keys by code points.
-/

set_option autoImplicit false

namespace StreamQuery.Json

inductive Number where
  | int (value : Int)
  | double (value : Double)

inductive Value where
  | null
  | bool (value : Bool)
  | num (value : Number)
  | str (value : String)
  | arr (items : List Value)
  | obj (members : List (String × Value))
deriving Inhabited

namespace Value

def field? (value : Value) (key : String) : Option Value :=
  match value with
  | obj members => members.lookup key
  | _ => none

def string? : Value → Option String
  | str value => some value
  | _ => none

def bool? : Value → Option Bool
  | bool value => some value
  | _ => none

def nat? : Value → Option Nat
  | num (.int (.ofNat value)) => some value
  | _ => none

def items? : Value → Option (List Value)
  | arr items => some items
  | _ => none

def isNull : Value → Bool
  | null => true
  | _ => false

theorem string?_eq_some_iff {value : Value} {s : String} :
    value.string? = some s ↔ value = str s := by
  cases value <;> simp [string?]

theorem bool?_eq_some_iff {value : Value} {b : Bool} : value.bool? = some b ↔ value = bool b := by
  cases value <;> simp [bool?]

theorem nat?_eq_some_iff {value : Value} {n : Nat} :
    value.nat? = some n ↔ value = num (.int n) := by
  unfold nat?
  split
  · simp only [Option.some.injEq, num.injEq, Number.int.injEq, Int.ofNat_eq_natCast, Int.natCast_inj]
  · rename_i other
    constructor
    · intro absent
      cases absent
    · rintro rfl
      exact absurd rfl (other n)

/-- A list of members in ascending order of keys with one more entered, in place of an earlier one
with the same key. -/
def entered (key : String) (value : Value) : List (String × Value) → List (String × Value)
  | [] => [(key, value)]
  | member :: rest =>
    if key < member.1 then (key, value) :: member :: rest
    else if key = member.1 then (key, value) :: rest
    else member :: entered key value rest

/-- The members in ascending order of keys; of several with one key the last one counts. -/
def sorted (members : List (String × Value)) : List (String × Value) :=
  members.foldl (fun done member => entered member.1 member.2 done) []

theorem keys_entered (key : String) (value : Value) (members : List (String × Value)) :
    (entered key value members).map Prod.fst =
      Text.insertAscending key (members.map Prod.fst) := by
  induction members with
  | nil => rfl
  | cons member rest ih =>
    simp only [entered, Text.insertAscending, List.map_cons]
    split
    · rfl
    · split
      · rename_i equal
        rw [List.map_cons, equal]
      · rw [List.map_cons, ih]

theorem find?_entered (members : List (String × Value)) (member : String × Value) (key : String) :
    ((entered member.1 member.2 members).find? fun other => other.1 = key) =
      if key = member.1 then some member else members.find? fun other => other.1 = key := by
  induction members with
  | nil =>
    by_cases hit : key = member.1
    · simp [entered, hit]
    · simp [entered, hit, Ne.symm hit]
  | cons first rest ih =>
    rw [entered]
    split
    · by_cases hit : key = member.1
      · simp [hit]
      · simp [hit, Ne.symm hit]
    · split
      · rename_i equal
        by_cases hit : key = member.1
        · simp [hit]
        · simp [hit, Ne.symm hit, ← equal]
      · rename_i different
        rw [List.find?_cons, List.find?_cons, ih]
        by_cases hit : key = member.1
        · simp [hit, Ne.symm different]
        · simp [hit]

theorem find?_sorted (members : List (String × Value)) (key : String) :
    ((sorted members).find? fun member => member.1 = key) =
      (members.filter fun member => member.1 = key).getLast? := by
  have found := @Roster.get?_foldl _ _ Prod.fst _ _
    (fun done member => entered member.1 member.2 done)
    (fun members key => members.find? fun member => member.1 = key) find?_entered members [] key
  exact found.trans Option.or_none

theorem pairwise_keys_foldl_entered (members : List (String × Value)) {done : List (String × Value)}
    (isSorted : (done.map Prod.fst).Pairwise (· < ·)) :
    ((members.foldl (fun done member => entered member.1 member.2 done) done).map
      Prod.fst).Pairwise (· < ·) := by
  induction members generalizing done with
  | nil => exact isSorted
  | cons member rest ih =>
    apply ih
    rw [keys_entered]
    exact Text.pairwise_insertAscending isSorted member.1

theorem pairwise_keys_sorted (members : List (String × Value)) :
    ((sorted members).map Prod.fst).Pairwise (· < ·) :=
  pairwise_keys_foldl_entered members .nil

theorem keys_sorted (members : List (String × Value)) :
    (sorted members).map Prod.fst = Text.ascending (members.map Prod.fst) := by
  apply Text.eq_ascending (pairwise_keys_sorted members)
  intro key
  have found := congrArg (Option.isSome · = true) (find?_sorted members key)
  simpa [List.filter_eq_nil_iff] using found

theorem perm_entered {key : String} {value : Value} {members : List (String × Value)}
    (absent : key ∉ members.map Prod.fst) :
    (entered key value members).Perm ((key, value) :: members) := by
  induction members with
  | nil => exact .refl _
  | cons member rest ih =>
    rw [List.map_cons, List.mem_cons, not_or] at absent
    rw [entered]
    split
    · exact .refl _
    · rw [if_neg absent.1]
      exact ((ih absent.2).cons member).trans (.swap _ _ _)

theorem perm_foldl_entered {members done : List (String × Value)}
    (distinct : ((done ++ members).map Prod.fst).Nodup) :
    (members.foldl (fun done member => entered member.1 member.2 done) done).Perm
      (done ++ members) := by
  induction members generalizing done with
  | nil => simp
  | cons member rest ih =>
    have absent : member.1 ∉ done.map Prod.fst := by
      rw [List.map_append, List.map_cons, List.nodup_append] at distinct
      intro present
      exact distinct.2.2 _ present _ List.mem_cons_self rfl
    have moved : (entered member.1 member.2 done ++ rest).Perm (done ++ member :: rest) :=
      ((perm_entered absent).append_right rest).trans List.perm_middle.symm
    rw [List.foldl_cons]
    exact (ih ((moved.map Prod.fst).nodup_iff.mpr distinct)).trans moved

theorem perm_sorted {members : List (String × Value)}
    (distinct : (members.map Prod.fst).Nodup) : (sorted members).Perm members :=
  perm_foldl_entered distinct

mutual

def canonical : Value → Value
  | null => null
  | bool value => bool value
  | num value => num value
  | str value => str value
  | arr items => arr (canonicalItems items)
  | obj members => obj (sorted (canonicalMembers members))

def canonicalItems : List Value → List Value
  | [] => []
  | item :: rest => canonical item :: canonicalItems rest

def canonicalMembers : List (String × Value) → List (String × Value)
  | [] => []
  | (key, value) :: rest => (key, canonical value) :: canonicalMembers rest

end

theorem canonicalItems_eq_map (items : List Value) : canonicalItems items = items.map canonical := by
  induction items with
  | nil => rfl
  | cons item rest ih => rw [canonicalItems, ih, List.map_cons]

theorem canonicalMembers_eq_map (members : List (String × Value)) :
    canonicalMembers members = members.map fun member => (member.1, canonical member.2) := by
  induction members with
  | nil => rfl
  | cons member rest ih => rw [canonicalMembers, ih, List.map_cons]

end Value

end StreamQuery.Json
