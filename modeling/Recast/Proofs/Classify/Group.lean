import Recast.Classify.Group

/-!
# Groups lose nothing

A grouping is filled one thing at a time, through its index. What comes out can be said at once, of
the things alone:

* `groupByKey_eq`: there is one group for each key, in the order of first occurrence, and it holds
  what has that key;
* `sized_perm_counted`: the members of all groups are the things that were grouped, rearranged, and
  the size that goes with each counts what has its key;
* `groupByKey_map`: renaming the things renames the members and leaves keys, order and sizes alone.
-/

namespace Recast

variable {α β : Type}

/-! ## 1. Keys -/

/-- The things with a given key, in the order in which they came. -/
def withKey (key : String) (xs : List (String × α)) : List α :=
  (xs.filter fun x => x.1 = key).map (·.2)

theorem mem_withKey {key : String} {xs : List (String × α)} {a : α} :
    a ∈ withKey key xs ↔ (key, a) ∈ xs := by
  unfold withKey
  constructor
  · intro h
    obtain ⟨x, hx, rfl⟩ := List.mem_map.1 h
    obtain ⟨hmem, hkey⟩ := List.mem_filter.1 hx
    rw [← of_decide_eq_true hkey]
    exact hmem
  · intro h
    exact List.mem_map.2 ⟨_, List.mem_filter.2 ⟨h, decide_eq_true rfl⟩, rfl⟩

theorem withKey_append_singleton (key : String) (xs : List (String × α)) (x : String × α) :
    withKey key (xs ++ [x]) = if key = x.1 then withKey key xs ++ [x.2] else withKey key xs := by
  unfold withKey
  rw [List.filter_append, List.map_append]
  split
  · rename_i h
    rw [List.filter_cons_of_pos (by simpa using h.symm)]
    rfl
  · rename_i h
    rw [List.filter_cons_of_neg (by simpa using Ne.symm h)]
    exact List.append_nil _

/-- Without repetitions no key occurs twice. -/
theorem nodup_eraseDups (keys : List String) : keys.eraseDups.Nodup := by
  induction hn : keys.length using Nat.strongRecOn generalizing keys with
  | ind n ih =>
    cases keys with
    | nil => exact List.nodup_nil
    | cons k ks =>
      rw [List.eraseDups_cons, List.nodup_cons, List.mem_eraseDups]
      refine ⟨fun h => ?_, ih _ ?_ _ rfl⟩
      · have hne := (List.mem_filter.1 h).2
        simp at hne
      · have := List.length_filter_le (fun b => !b == k) ks
        rw [← hn, List.length_cons]
        omega

/-- One more key counts only when it is new. -/
theorem eraseDups_append_singleton (keys : List String) (key : String) :
    (keys ++ [key]).eraseDups = if key ∈ keys then keys.eraseDups else keys.eraseDups ++ [key] := by
  rw [List.eraseDups_append]
  split
  · simp_all [List.removeAll]
  · simp_all [List.removeAll, List.eraseDups_cons]

/-! ## 2. Filling a grouping -/

/-- One group for each key, with what has that key. -/
def Group.ofKeys (keys : List String) (xs : List (String × α)) : List (Group α) :=
  keys.map fun key => ⟨key, withKey key xs⟩

theorem Group.getElem?_ofKeys (keys : List String) (xs : List (String × α)) (i : Nat) :
    (ofKeys keys xs)[i]? = keys[i]?.map fun key => ⟨key, withKey key xs⟩ := List.getElem?_map

/-- A thing whose key has a group joins it. -/
theorem Group.modify_ofKeys {keys : List String} (hnodup : keys.Nodup) (xs : List (String × α))
    {x : String × α} {i : Nat} (hi : keys[i]? = some x.1) :
    (ofKeys keys xs).modify i (Group.join x.2) = ofKeys keys (xs ++ [x]) := by
  refine List.ext_getElem? fun j => ?_
  rw [List.getElem?_modify, getElem?_ofKeys, getElem?_ofKeys]
  by_cases hij : i = j
  · subst hij
    simp only [hi, Option.map_some, Option.map_eq_map, if_true, withKey_append_singleton]
    rfl
  · simp only [if_neg hij, Option.map_eq_map, Option.map_id']
    cases hj : keys[j]? with
    | none => rfl
    | some key =>
      have hne : key ≠ x.1 := by
        rintro rfl
        have hlt := (List.getElem?_eq_some_iff.1 hi).1
        exact hij ((List.getElem?_inj hlt hnodup).1 (hi.trans hj.symm))
      rw [Option.map_some, Option.map_some, withKey_append_singleton, if_neg hne]

/-- A thing whose key has no group opens one at the end. -/
theorem Group.concat_ofKeys {keys : List String} {xs : List (String × α)} {x : String × α}
    (h : x.1 ∉ keys) (hxs : x.1 ∉ xs.map (·.1)) :
    ofKeys keys xs ++ [⟨x.1, [x.2]⟩] = ofKeys (keys ++ [x.1]) (xs ++ [x]) := by
  have hnone : withKey x.1 xs = [] := List.eq_nil_iff_forall_not_mem.2 fun a ha =>
    hxs (List.mem_map.2 ⟨_, mem_withKey.1 ha, rfl⟩)
  unfold ofKeys
  rw [List.map_append, List.map_singleton, withKey_append_singleton, if_pos rfl, hnone,
    List.nil_append]
  congr 1
  refine List.map_congr_left fun key hkey => ?_
  have hne : key ≠ x.1 := by
    rintro rfl
    exact h hkey
  rw [withKey_append_singleton, if_neg hne]

/-- **One step of grouping**: one more thing, in the groups of those before it. -/
theorem Grouping.groups_push {g : Grouping α} {xs : List (String × α)}
    (hg : g.groups = Group.ofKeys (xs.map (·.1)).eraseDups xs) (x : String × α) :
    (g.push x.1 x.2).groups = Group.ofKeys ((xs ++ [x]).map (·.1)).eraseDups (xs ++ [x]) := by
  -- the index finds a key exactly where the list of keys has it
  have hindex (i : Nat) :
      g.index.lookup x.1 = some i ↔ (xs.map (·.1)).eraseDups[i]? = some x.1 := by
    rw [g.inStep x.1 i, hg, Group.getElem?_ofKeys, Option.map_map]
    exact (congrArg (· = some x.1) (Option.map_id' ..)).to_iff
  rw [List.map_append, List.map_singleton, eraseDups_append_singleton]
  unfold push
  split
  · rename_i i hi
    have hkey := (hindex i).1 hi
    show g.groups.modify i (Group.join x.2) = _
    rw [if_pos (List.mem_eraseDups.1 (List.mem_of_getElem? hkey)), hg]
    exact Group.modify_ofKeys (nodup_eraseDups _) xs hkey
  · rename_i hnone
    have hnew : x.1 ∉ (xs.map (·.1)).eraseDups := by
      intro hmem
      obtain ⟨i, hi⟩ := List.getElem?_of_mem hmem
      rw [(hindex i).2 hi] at hnone
      cases hnone
    have hnew' : x.1 ∉ xs.map (·.1) := fun hmem => hnew (List.mem_eraseDups.2 hmem)
    show g.groups ++ [⟨x.1, [x.2]⟩] = _
    rw [if_neg hnew', hg]
    exact Group.concat_ofKeys hnew hnew'

/-- **The groups of a list, said at once**: one for each key, in the order in which the keys first
    occur, with all that has the key, in the order in which it came. -/
theorem groupByKey_eq (xs : List (String × α)) :
    groupByKey xs = Group.ofKeys (xs.map (·.1)).eraseDups xs := by
  suffices h : ∀ (done : List (String × α)) (g : Grouping α),
      g.groups = Group.ofKeys (done.map (·.1)).eraseDups done →
      (xs.foldl (fun g x => g.push x.1 x.2) g).groups =
        Group.ofKeys ((done ++ xs).map (·.1)).eraseDups (done ++ xs) from h [] .empty rfl
  induction xs with
  | nil =>
    intro done g hg
    rw [List.append_nil]
    exact hg
  | cons x xs ih =>
    intro done g hg
    rw [List.foldl_cons, ih (done ++ [x]) _ (Grouping.groups_push hg x), List.append_assoc]
    rfl

/-! ## 3. Members -/

/-- What has one of several keys, key by key, is everything, rearranged. -/
theorem flatMap_filter_perm {keys : List String} (hnodup : keys.Nodup) {xs : List (String × α)}
    (hxs : ∀ x ∈ xs, x.1 ∈ keys) : (keys.flatMap fun key => xs.filter (·.1 = key)).Perm xs := by
  induction keys generalizing xs with
  | nil =>
    rw [List.eq_nil_iff_forall_not_mem.2 fun x hx => List.not_mem_nil (hxs x hx)]
    exact .refl _
  | cons k ks ih =>
    obtain ⟨hk, hks⟩ := List.nodup_cons.1 hnodup
    let rest := xs.filter fun x => !decide (x.1 = k)
    -- the later keys are not `k`, so they find what they find in the rest
    have hrest : (ks.flatMap fun key => xs.filter (·.1 = key)) =
        ks.flatMap fun key => rest.filter (·.1 = key) := by
      unfold List.flatMap
      congr 1
      refine List.map_congr_left fun key hkey => ?_
      rw [List.filter_filter]
      refine List.filter_congr fun x _ => ?_
      by_cases hx : x.1 = key
      · have hne : x.1 ≠ k := by
          rintro rfl
          exact hk (hx ▸ hkey)
        simp [hx ▸ hne, hx]
      · simp [hx]
    have hperm : (ks.flatMap fun key => rest.filter (·.1 = key)).Perm rest := by
      refine ih hks fun x hx => ?_
      obtain ⟨hmem, hne⟩ := List.mem_filter.1 hx
      exact (List.mem_cons.1 (hxs x hmem)).resolve_left (by simpa using hne)
    rw [List.flatMap_cons, hrest]
    exact (hperm.append_left _).trans (List.filter_append_perm _ xs)

/-- **Grouping loses nothing and adds nothing**: the members of the groups are the things that were
    grouped, in another order, and the size that goes with each counts what has its key. -/
theorem sized_perm_counted (xs : List (String × α)) :
    (Group.sized (groupByKey xs)).Perm (xs.map fun x => (x.2, (withKey x.1 xs).length)) := by
  have hsized : Group.sized (groupByKey xs) =
      ((xs.map (·.1)).eraseDups.flatMap fun key => xs.filter (·.1 = key)).map
        fun x => (x.2, (withKey x.1 xs).length) := by
    rw [groupByKey_eq, Group.sized, Group.ofKeys, List.flatMap_map, List.map_flatMap]
    congr 1
    funext key
    show (withKey key xs).map _ = _
    rw [withKey, List.map_map]
    refine List.map_congr_left fun x hx => ?_
    rw [of_decide_eq_true (List.mem_filter.1 hx).2]
    rfl
  rw [hsized]
  refine (flatMap_filter_perm (nodup_eraseDups _) fun x hx => ?_).map _
  exact List.mem_eraseDups.2 (List.mem_map.2 ⟨x, hx, rfl⟩)

theorem sized_perm (xs : List (String × α)) :
    ((Group.sized (groupByKey xs)).map (·.1)).Perm (xs.map (·.2)) := by
  have h := (sized_perm_counted xs).map (·.1)
  rwa [List.map_map] at h

/-- **The size that goes with a thing counts what has its key.** -/
theorem mem_sized_iff {xs : List (String × α)} {a : α} {n : Nat} :
    (a, n) ∈ Group.sized (groupByKey xs) ↔
      ∃ key, (key, a) ∈ xs ∧ n = (withKey key xs).length := by
  rw [(sized_perm_counted xs).mem_iff, List.mem_map]
  constructor
  · rintro ⟨⟨key, b⟩, hx, he⟩
    cases he
    exact ⟨key, hx, rfl⟩
  · rintro ⟨key, hx, rfl⟩
    exact ⟨_, hx, rfl⟩

theorem mem_of_mem_sized {xs : List (String × α)} {a : α} {n : Nat}
    (h : (a, n) ∈ Group.sized (groupByKey xs)) : ∃ key, (key, a) ∈ xs := by
  obtain ⟨key, hx, -⟩ := mem_sized_iff.1 h
  exact ⟨key, hx⟩

/-! ## 4. Renaming -/

/-- The same group of renamed members. -/
def Group.map (f : α → β) (g : Group α) : Group β := ⟨g.key, g.members.map f⟩

theorem withKey_map (f : α → β) (key : String) (xs : List (String × α)) :
    withKey key (xs.map fun x => (x.1, f x.2)) = (withKey key xs).map f := by
  unfold withKey
  rw [List.filter_map, List.map_map, List.map_map]
  rfl

theorem groupByKey_map (f : α → β) (xs : List (String × α)) :
    groupByKey (xs.map fun x => (x.1, f x.2)) = (groupByKey xs).map (Group.map f) := by
  rw [groupByKey_eq, groupByKey_eq, Group.ofKeys, Group.ofKeys, List.map_map, List.map_map]
  refine List.map_congr_left fun key _ => ?_
  rw [withKey_map]
  rfl

theorem sized_map (f : α → β) (gs : List (Group α)) :
    Group.sized (gs.map (Group.map f)) = (Group.sized gs).map fun x => (f x.1, x.2) := by
  unfold Group.sized
  rw [List.flatMap_map, List.map_flatMap]
  congr 1
  funext g
  simp [Group.map]

end Recast
