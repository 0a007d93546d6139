import Mathlib.Data.List.Induction
import Mathlib.Order.Lattice.Nat
import ConnectorControl.KeySets

/-!
# What is made of key sets

Two searches go over the alternatives, one for the first set that is held wholly and one for the
first set that lacks the fewest keys.

* `matching_eq_some`   the set that is taken stands at the least of the positions that fit, so a
                       holder of more keys takes none that stands later (`takes_no_later`);
* `closestMissing_split`   the keys that are named are what one alternative lacks, where those
                       before it lack more and none lacks fewer, so these keys are all that has to
                       be added (`reports_keys_to_add`).

A holder is known by the keys that it answers for (`KeyHolder.holds_iff`); how a Secret spreads its
keys does not show (`Secret.hasKey_eq`).
-/

namespace ConnectorControl

/-! ## holders -/

theorem Table.contains_iff {α : Type} {t : Table String α} {key : String} :
    t.contains key = true ↔ key ∈ t.keys := by
  have hnone : t.find? key = none ↔ key ∉ t.keys := by
    unfold Table.keys
    rw [List.mem_map]
    refine Entries.find?_eq_none.trans ⟨fun h ⟨e, he, hkey⟩ => h e he hkey, fun h e he hkey => ?_⟩
    exact h ⟨e, he, hkey⟩
  unfold Table.contains
  rw [Option.isSome_iff_ne_none, Ne, hnone, not_not]

namespace Secret

def keys (s : Secret) : Set String :=
  {key | (∃ bytes ∈ s.data, key ∈ bytes.keys) ∨ ∃ texts ∈ s.stringData, key ∈ texts.keys}

theorem hasKey_iff {s : Secret} {key : String} : s.hasKey key = true ↔ key ∈ s.keys := by
  have hany : ∀ {α : Type} (t : Option (Table String α)),
      t.any (·.contains key) = true ↔ ∃ entries ∈ t, key ∈ entries.keys := by
    intro α t
    rw [Option.any_eq_true]
    exact exists_congr fun entries => and_congr_right fun _ => Table.contains_iff
  unfold hasKey
  rw [Bool.or_eq_true, hany, hany]
  exact Iff.rfl

theorem hasKey_eq {s s' : Secret} (h : s.keys = s'.keys) : s.hasKey = s'.hasKey := by
  funext key
  rw [Bool.eq_iff_iff, hasKey_iff, hasKey_iff, h]

end Secret

/-- what can hold keys: a map, a set, or a Secret -/
inductive KeyHolder : Type 1 where
  | map {α : Type} (entries : Table String α)
  | set (keys : List String)
  | secret (s : Secret)

namespace KeyHolder

def holds : KeyHolder → String → Bool
  | map entries, key => entries.contains key
  | set keys, key => keys.contains key
  | secret s, key => s.hasKey key

def keys : KeyHolder → Set String
  | map entries => {key | key ∈ entries.keys}
  | set keys => {key | key ∈ keys}
  | secret s => s.keys

theorem holds_iff {K : KeyHolder} {key : String} : K.holds key = true ↔ key ∈ K.keys := by
  cases K with
  | map entries => exact Table.contains_iff
  | set keys => exact List.contains_iff_mem
  | secret s => exact Secret.hasKey_iff

end KeyHolder

namespace KeySets

variable {holds holds' : String → Bool} {alternatives : List (List String)} {set : List String}
  {K K' : KeyHolder} {i : Nat}

/-! ## the set that is taken -/

def positions (keys : Set String) (alternatives : List (List String)) : Set Nat :=
  {i | ∃ set, alternatives[i]? = some set ∧ ∀ key ∈ set, key ∈ keys}

theorem positions_mono {keys keys' : Set String} (h : keys ⊆ keys') :
    positions keys alternatives ⊆ positions keys' alternatives :=
  fun _ ⟨set, hset, hkeys⟩ => ⟨set, hset, fun key hkey => h (hkeys key hkey)⟩

theorem mem_positions : i ∈ positions K.keys alternatives ↔
    ∃ set, alternatives[i]? = some set ∧ satisfied K.holds set = true := by
  refine exists_congr fun set => and_congr_right fun _ => ?_
  unfold satisfied
  rw [List.all_eq_true]
  exact forall₂_congr fun key _ => KeyHolder.holds_iff.symm

theorem matchIndex_eq_some :
    matchIndex K.holds alternatives = some i ↔ IsLeast (positions K.keys alternatives) i := by
  unfold matchIndex
  rw [List.findIdx?_eq_some_iff_getElem]
  constructor
  · rintro ⟨hi, hheld, hbefore⟩
    refine ⟨mem_positions.2 ⟨_, List.getElem?_eq_getElem hi, hheld⟩, fun j hj => ?_⟩
    obtain ⟨set, hset, hsatisfied⟩ := mem_positions.1 hj
    obtain ⟨hlt, rfl⟩ := List.getElem?_eq_some_iff.1 hset
    by_contra hji
    exact hbefore j (not_le.1 hji) hsatisfied
  · rintro ⟨hi, hleast⟩
    obtain ⟨set, hset, hsatisfied⟩ := mem_positions.1 hi
    obtain ⟨hlt, rfl⟩ := List.getElem?_eq_some_iff.1 hset
    refine ⟨hlt, hsatisfied, fun j hji hj => ?_⟩
    have hle : i ≤ j :=
      hleast (mem_positions.2 ⟨_, List.getElem?_eq_getElem (hji.trans hlt), hj⟩)
    omega

theorem matching_eq :
    matching holds alternatives = (matchIndex holds alternatives).bind (alternatives[·]?) :=
  List.find?_eq_bind_findIdx?_getElem?

/-- the alternative at a position is the one that is taken, and the first whose keys are all held -/
structure Takes (K : KeyHolder) (alternatives : List (List String)) (i : Nat) : Prop where
  least : IsLeast (positions K.keys alternatives) i
  taken : matching K.holds alternatives = alternatives[i]?

theorem takes_of_isLeast (h : IsLeast (positions K.keys alternatives) i) :
    Takes K alternatives i := by
  refine ⟨h, ?_⟩
  rw [matching_eq, matchIndex_eq_some.2 h]
  rfl

theorem matching_eq_some : matching K.holds alternatives = some set ↔
    ∃ i, Takes K alternatives i ∧ alternatives[i]? = some set := by
  constructor
  · intro h
    rw [matching_eq] at h
    obtain ⟨i, hi, hset⟩ := Option.bind_eq_some_iff.1 h
    exact ⟨i, takes_of_isLeast (matchIndex_eq_some.1 hi), hset⟩
  · rintro ⟨i, htakes, hset⟩
    rw [htakes.taken, hset]

/-- where an alternative fits, one that stands no later is the first -/
theorem exists_takes_of_mem (h : i ∈ positions K.keys alternatives) :
    ∃ j ≤ i, Takes K alternatives j :=
  ⟨_, Nat.sInf_le h, takes_of_isLeast ⟨Nat.sInf_mem ⟨i, h⟩, fun _ hj => Nat.sInf_le hj⟩⟩

/-- A holder that takes an alternative takes the first whose keys it holds, and one that holds more
keys takes that one or one before it.  How a Secret spreads its keys over bytes and texts shows
neither in the alternative that is taken nor in the keys that are named as missing. -/
theorem takes_no_later (alternatives : List (List String)) :
    (∀ K K' : KeyHolder, K.keys ⊆ K'.keys → ∀ set, matching K.holds alternatives = some set →
      ∃ i, Takes K alternatives i ∧ alternatives[i]? = some set ∧
        ∃ j ≤ i, Takes K' alternatives j ∧ (matching K'.holds alternatives).isSome) ∧
    ∀ s s' : Secret, s.keys = s'.keys →
      matching s.hasKey alternatives = matching s'.hasKey alternatives ∧
        closestMissing s.hasKey alternatives = closestMissing s'.hasKey alternatives := by
  refine ⟨fun K K' hkeys set hset => ?_, fun s s' hkeys => ?_⟩
  · obtain ⟨i, hi, hset⟩ := matching_eq_some.1 hset
    obtain ⟨j, hji, hj⟩ := exists_takes_of_mem (positions_mono hkeys hi.least.1)
    obtain ⟨set', hset', _⟩ := hj.least.1
    refine ⟨i, hi, hset, j, hji, hj, ?_⟩
    rw [hj.taken, hset']
    rfl
  · rw [Secret.hasKey_eq hkeys]
    exact ⟨rfl, rfl⟩

def splitSecret (bytes : Table String (List UInt8)) (texts : Table String String) : Secret where
  metadata := default
  type := none
  immutable := none
  data := some bytes
  stringData := some texts

theorem keys_splitSecret (bytes : Table String (List UInt8)) (texts : Table String String) :
    (splitSecret bytes texts).keys = {key | key ∈ bytes.keys ++ texts.keys} := by
  ext key
  simp [Secret.keys, splitSecret]

def bytesSecret : Secret := splitSecret ⟨[("token", []), ("user", [])], by decide⟩ ∅

def movedSecret : Secret := splitSecret ⟨[("user", [])], by decide⟩ ⟨[("token", "t")], by decide⟩

def pinSecret : Secret :=
  splitSecret ⟨[("user", [])], by decide⟩ ⟨[("pin", "1"), ("token", "t")], by decide⟩

/-- with a pin there is an earlier alternative, and with the token moved the same is taken -/
theorem takes_no_later_pin :
    let alternatives := [["pin", "user"], ["token", "user"], ["token"]]
    bytesSecret.keys ⊆ pinSecret.keys ∧
      matching bytesSecret.hasKey alternatives = some ["token", "user"] ∧
      (∃ i, Takes (.secret bytesSecret) alternatives i ∧ alternatives[i]? = some ["token", "user"] ∧
        ∃ j ≤ i, Takes (.secret pinSecret) alternatives j ∧
          (matching pinSecret.hasKey alternatives).isSome) ∧
      bytesSecret.keys = movedSecret.keys ∧
      matching bytesSecret.hasKey alternatives = matching movedSecret.hasKey alternatives := by
  intro alternatives
  have hmore : bytesSecret.keys ⊆ pinSecret.keys := by
    unfold bytesSecret pinSecret
    rw [keys_splitSecret, keys_splitSecret]
    exact show ["token", "user"] ⊆ ["user", "pin", "token"] by decide
  have hsame : bytesSecret.keys = movedSecret.keys := by
    unfold bytesSecret movedSecret
    rw [keys_splitSecret, keys_splitSecret]
    refine Set.Subset.antisymm ?_ ?_
    · exact show ["token", "user"] ⊆ ["user", "token"] by decide
    · exact show ["user", "token"] ⊆ ["token", "user"] by decide
  have htaken : matching bytesSecret.hasKey alternatives = some ["token", "user"] := by
    decide +kernel
  obtain ⟨hlater, hmoved⟩ := takes_no_later alternatives
  exact ⟨hmore, htaken, hlater (.secret bytesSecret) (.secret pinSecret) hmore _ htaken,
    hsame, (hmoved _ _ hsame).1⟩

/-! ## the keys that are named -/

def adding (holds : String → Bool) (keys : List String) : String → Bool :=
  fun key => holds key || keys.contains key

theorem isSatisfied_iff :
    isSatisfied holds alternatives = true ↔ ∃ set ∈ alternatives, satisfied holds set = true := by
  unfold isSatisfied matching
  rw [List.find?_isSome]

theorem shortest_concat (s : List String) (rest : List (List String)) (t : List String) :
    shortest (s :: (rest ++ [t])) =
      if t.length < (shortest (s :: rest)).length then t else shortest (s :: rest) := by
  show List.foldl _ s (rest ++ [t]) = _
  rw [List.foldl_append]
  rfl

/-- the first of the shortest lists: those before it are longer, and none after it is shorter -/
theorem shortest_split (s : List String) (rest : List (List String)) :
    ∃ before best after, s :: rest = before ++ best :: after ∧ shortest (s :: rest) = best ∧
      (∀ t ∈ before, best.length < t.length) ∧ ∀ t ∈ after, best.length ≤ t.length := by
  -- the search goes from the front, so the last list is compared with the best of those before it
  induction rest using List.reverseRecOn with
  | nil => exact ⟨[], s, [], rfl, rfl, List.forall_mem_nil _, List.forall_mem_nil _⟩
  | append_singleton rest t ih =>
    obtain ⟨before, best, after, hsplit, hbest, hlonger, hnoshorter⟩ := ih
    rw [shortest_concat, hbest, ← List.cons_append, hsplit]
    by_cases hlt : t.length < best.length
    · rw [if_pos hlt]
      refine ⟨before ++ best :: after, t, [], rfl, rfl, fun u hu => ?_, List.forall_mem_nil _⟩
      rcases List.mem_append.1 hu with hu | hu
      · exact hlt.trans (hlonger u hu)
      · rcases List.mem_cons.1 hu with rfl | hu
        · exact hlt
        · exact hlt.trans_le (hnoshorter u hu)
    · rw [if_neg hlt]
      refine ⟨before, best, after ++ [t], List.append_assoc _ _ _, rfl, hlonger, fun u hu => ?_⟩
      rcases List.mem_append.1 hu with hu | hu
      · exact hnoshorter u hu
      · obtain rfl := List.mem_singleton.1 hu
        exact not_lt.1 hlt

/-- what is named is what one alternative lacks: those before it lack more, those after it no
less -/
theorem closestMissing_split (holds : String → Bool) (h : alternatives ≠ []) :
    ∃ before set after, alternatives = before ++ set :: after ∧
      closestMissing holds alternatives = missing holds set ∧
      (∀ other ∈ before, (missing holds set).length < (missing holds other).length) ∧
      ∀ other ∈ after, (missing holds set).length ≤ (missing holds other).length := by
  obtain ⟨first, rest, rfl⟩ := List.exists_cons_of_ne_nil h
  obtain ⟨before, best, after, hsplit, hbest, hlonger, hnoshorter⟩ :=
    shortest_split (missing holds first) (rest.map (missing holds))
  rw [← List.map_cons] at hsplit hbest
  obtain ⟨sets, others, hsets, rfl, hothers⟩ := List.map_eq_append_iff.1 hsplit
  obtain ⟨set, sets', rfl, rfl, rfl⟩ := List.map_eq_cons_iff.1 hothers
  exact ⟨sets, set, sets', hsets, hbest, fun other hother => hlonger _ (List.mem_map_of_mem hother),
    fun other hother => hnoshorter _ (List.mem_map_of_mem hother)⟩

theorem satisfied_adding_missing (holds : String → Bool) (set : List String) :
    satisfied (adding holds (missing holds set)) set = true := by
  unfold satisfied adding
  rw [List.all_eq_true]
  intro key hkey
  cases hholds : holds key with
  | true => rfl
  | false =>
    rw [Bool.false_or, List.contains_iff_mem]
    exact List.mem_filter.2 ⟨hkey, by rw [hholds]; rfl⟩

theorem length_closestMissing_le {other : List String} (h : other ∈ alternatives) :
    (closestMissing holds alternatives).length ≤ (missing holds other).length := by
  obtain ⟨before, set, after, hsplit, hnamed, hmore, hnoless⟩ :=
    closestMissing_split holds (List.ne_nil_of_mem h)
  rw [hnamed]
  rw [hsplit] at h
  rcases List.mem_append.1 h with h | h
  · exact (hmore other h).le
  · rcases List.mem_cons.1 h with rfl | h
    · exact le_rfl
    · exact hnoless other h

theorem not_held_of_mem {key : String} (h : key ∈ closestMissing holds alternatives) :
    holds key = false := by
  cases alternatives with
  | nil => cases h
  | cons first rest =>
    obtain ⟨_, set, _, _, hnamed, _⟩ := closestMissing_split holds (List.cons_ne_nil first rest)
    rw [hnamed] at h
    simpa using (List.mem_filter.1 h).2

theorem closestMissing_eq_nil : closestMissing holds alternatives = [] ↔
    alternatives = [] ∨ isSatisfied holds alternatives = true := by
  constructor
  · intro hnil
    refine or_iff_not_imp_left.2 fun hne => ?_
    obtain ⟨before, set, after, hsplit, hnamed, _⟩ := closestMissing_split holds hne
    refine isSatisfied_iff.2 ⟨set, ?_, missing_eq_nil.1 (hnamed.symm.trans hnil)⟩
    rw [hsplit]
    exact List.mem_append_right _ List.mem_cons_self
  · rintro (rfl | hsatisfied)
    · rfl
    · obtain ⟨set, hset, hheld⟩ := isSatisfied_iff.1 hsatisfied
      have hle : (closestMissing holds alternatives).length ≤ (missing holds set).length :=
        length_closestMissing_le hset
      rw [missing_eq_nil.2 hheld] at hle
      exact List.eq_nil_of_length_eq_zero (Nat.le_zero.1 hle)

/-- Keys are named as missing unless there is nothing to match or something matches.  None of them
is held, and with all of them added a set is held.  They are what the first of the alternatives
that lack the fewest keys lacks, in its order. -/
theorem reports_keys_to_add (holds : String → Bool) (alternatives : List (List String)) :
    let reported := closestMissing holds alternatives
    (reported = [] ↔ alternatives = [] ∨ isSatisfied holds alternatives = true) ∧
      (∀ key ∈ reported, holds key = false) ∧
      (alternatives ≠ [] → isSatisfied (adding holds reported) alternatives = true) ∧
      (∀ other ∈ alternatives, reported.length ≤ (missing holds other).length) ∧
      (alternatives ≠ [] → ∃ before set after, alternatives = before ++ set :: after ∧
        reported = missing holds set ∧
        ∀ other ∈ before, reported.length < (missing holds other).length) := by
  intro reported
  refine ⟨closestMissing_eq_nil, fun key hkey => ?_, fun hne => ?_,
    fun other hother => length_closestMissing_le hother, fun hne => ?_⟩
  · exact not_held_of_mem hkey
  · obtain ⟨before, set, after, hsplit, hnamed, _⟩ := closestMissing_split holds hne
    refine isSatisfied_iff.2 ⟨set, ?_, ?_⟩
    · rw [hsplit]
      exact List.mem_append_right _ List.mem_cons_self
    · show satisfied (adding holds (closestMissing holds alternatives)) set = true
      rw [hnamed]
      exact satisfied_adding_missing holds set
  · obtain ⟨before, set, after, hsplit, hnamed, hmore, _⟩ := closestMissing_split holds hne
    refine ⟨before, set, after, hsplit, hnamed, fun other hother => ?_⟩
    show (closestMissing holds alternatives).length < _
    rw [hnamed]
    exact hmore other hother

/-- The third alternative lacks one key, as the fourth does; the two before it lack two, of which
one is the same key twice. -/
theorem reports_keys_to_add_tied :
    let alternatives := [["user", "pin", "pin"], ["name", "word"], ["user", "token"], ["name"]]
    let holds := fun key => key = "user"
    closestMissing holds alternatives = ["token"] ∧ alternatives ≠ [] ∧
      isSatisfied (adding holds (closestMissing holds alternatives)) alternatives = true := by
  intro alternatives holds
  have hne : alternatives ≠ [] := List.cons_ne_nil _ _
  obtain ⟨_, _, hadding, _⟩ := reports_keys_to_add holds alternatives
  exact ⟨by decide +kernel, hne, hadding hne⟩

end KeySets
end ConnectorControl
