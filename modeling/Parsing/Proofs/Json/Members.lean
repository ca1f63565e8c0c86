import Parsing.Proofs.Json.Syntax

/-!
# Members of objects

Giving values to keys one after the other leaves each key with the last of its values. Since members are
in the order of their keys, the values of the keys determine them, so an object does not depend on how it
came about.
-/

namespace Parsing.Json

variable {key other : String} {value : Value} {bound : Option String}

namespace MembersAfter

variable {members others : MembersAfter bound}

/-- Induction along the keys, whatever the values are. -/
@[induction_eliminator]
theorem induction {motive : (bound : Option String) → MembersAfter bound → Prop}
    (nil : ∀ bound, motive bound .nil)
    (cons : ∀ bound key value later (h : bound < some key), motive (some key) later →
      motive bound (.cons key value later h)) :
    {bound : Option String} → (members : MembersAfter bound) → motive bound members
  | _, .nil => nil _
  | _, .cons key value later h => cons _ key value later h (induction nil cons later)

/-- Whatever comes after a key comes after all that the key comes after. -/
theorem after_trans (h : bound < some key) (hother : key < other) : bound < some other := by
  cases bound with
  | none => trivial
  | some first => exact String.lt_trans (show first < key from h) hother

/-- All keys come after the bound. -/
theorem after_of_mem {entry : String × Value} (h : entry ∈ members.entries) : bound < some entry.1 := by
  induction members with
  | nil => cases h
  | cons _ key value later hkey ih =>
    rcases List.mem_cons.1 h with rfl | h
    · exact hkey
    · exact after_trans hkey (ih h)

/-- Members are in the order of their keys, each key once. -/
theorem sorted (members : MembersAfter bound) :
    members.entries.Pairwise fun earlier later => earlier.1 < later.1 := by
  induction members with
  | nil => exact .nil
  | cons _ key value later _ ih => exact .cons (fun _ h => after_of_mem h) ih

/-- The first member is found by its key. -/
theorem lookup_cons_eq {entries : List (String × Value)} : ((key, value) :: entries).lookup other =
    if other = key then some value else entries.lookup other := by
  by_cases h : other = key
  · simp [h]
  · simp [List.lookup_cons, beq_false_of_ne h, h]

/-- A key that does not come after the bound has no value. -/
theorem lookup_eq_none (h : ¬bound < some key) : members.entries.lookup key = none := by
  refine List.lookup_eq_none_iff.2 fun entry hentry => ?_
  suffices key ≠ entry.1 by simpa using this
  rintro rfl
  exact h (after_of_mem hentry)

/-- A key has the value that it is given; other keys keep theirs. -/
theorem lookup_insert {h : bound < some key} : (insert key value h members).entries.lookup other =
    if other = key then some value else members.entries.lookup other := by
  induction members with
  | nil => exact lookup_cons_eq
  | cons _ first kept later hfirst ih =>
    rw [insert]
    split
    · exact lookup_cons_eq
    · split
      · next hsame =>
        subst hsame
        rw [entries, entries, lookup_cons_eq, lookup_cons_eq]
        split <;> rfl
      · next hne =>
        rw [entries, entries, lookup_cons_eq, ih, lookup_cons_eq]
        by_cases hkey : other = key
        · subst hkey
          rw [if_neg hne, if_pos rfl, if_pos rfl]
        · rw [if_neg hkey, if_neg hkey]

/-- The first key has the first value. -/
theorem lookup_first {later : MembersAfter (some key)} {h : bound < some key} :
    (cons key value later h).entries.lookup key = some value := by
  rw [entries, lookup_cons_eq, if_pos rfl]

/-- No key that has a value comes before the first one. -/
theorem le_of_lookup_eq_some {later : MembersAfter (some key)} {h : bound < some key} {kept : Value}
    (hlookup : (cons key value later h).entries.lookup other = some kept) : key ≤ other := by
  apply String.not_lt.1
  intro hlt
  have hafter : ¬some key < some other := fun hafter : key < other =>
    String.lt_irrefl key (String.lt_trans hafter hlt)
  rw [entries, lookup_cons_eq, if_neg (String.ne_of_lt hlt), lookup_eq_none hafter] at hlookup
  cases hlookup

/-- Members are determined by the values of the keys. -/
theorem ext (same : ∀ key, members.entries.lookup key = others.entries.lookup key) : members = others := by
  induction members with
  | nil =>
    cases others with
    | nil => rfl
    | cons key value later _ => cases (same key).trans lookup_first
  | cons _ key value later hkey ih =>
    cases others with
    | nil => cases (same key).symm.trans lookup_first
    | cons key' value' later' hkey' =>
      have hfirst : key = key' :=
        String.le_antisymm (le_of_lookup_eq_some ((same key').trans lookup_first))
          (le_of_lookup_eq_some ((same key).symm.trans lookup_first))
      subst hfirst
      obtain rfl : value = value' :=
        Option.some.inj (lookup_first.symm.trans ((same key).trans lookup_first))
      rw [ih fun other => ?_]
      by_cases hother : other = key
      · subst hother
        have hnot : ¬some other < some other := String.lt_irrefl other
        rw [lookup_eq_none hnot, lookup_eq_none hnot]
      · have hlater := same other
        rwa [entries, entries, lookup_cons_eq, lookup_cons_eq, if_neg hother, if_neg hother] at hlater

/-- A key has the same value from either end, since it is there only once. -/
theorem lookup_reverse (members : MembersAfter bound) (key : String) :
    members.entries.reverse.lookup key = members.entries.lookup key := by
  induction members with
  | nil => rfl
  | cons _ first value later _ ih =>
    rw [entries, List.reverse_cons, List.lookup_append, ih, lookup_cons_eq, lookup_cons_eq]
    by_cases hkey : key = first
    · subst hkey
      rw [lookup_eq_none (String.lt_irrefl key), if_pos rfl, if_pos rfl, Option.none_or]
    · rw [if_neg hkey, if_neg hkey, List.lookup_nil, Option.or_none]

end MembersAfter

namespace Members

open MembersAfter

variable {members : Members} {entries : List (String × Value)}

/-- What is gathered from entries given one after the other to members that are there already. -/
theorem lookup_foldl : (entries.foldl (fun members entry => insert entry.1 entry.2 members)
      members).entries.lookup key =
    (entries.reverse.lookup key).or (members.entries.lookup key) := by
  induction entries generalizing members with
  | nil => rfl
  | cons entry entries ih =>
    obtain ⟨first, value⟩ := entry
    rw [List.foldl_cons, ih, insert, lookup_insert, List.reverse_cons, List.lookup_append, Option.or_assoc,
      lookup_cons_eq]
    by_cases hkey : key = first <;> simp [hkey]

/-- The members given one after the other are what their entries gather to. -/
theorem gather_ofList (entries : List (String × Value)) : Gather entries (ofList entries) :=
  fun _ => lookup_foldl.trans (Option.or_none ..)

/-- Entries gather to nothing else. -/
theorem Gather.eq_ofList (h : Gather entries members) : members = ofList entries :=
  MembersAfter.ext fun key => (h key).trans (gather_ofList entries key).symm

/-- Members gather to themselves. -/
theorem gather_entries (members : Members) : Gather members.entries members :=
  fun key => (lookup_reverse members key).symm

end Members

end Parsing.Json
