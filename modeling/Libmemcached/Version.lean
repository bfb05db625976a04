-- memcached_version: the version of the first host, whole or split at its dots
-- (libmemcached.xs). The split walks over the string that
-- memcached_stat_get_value has allocated.
import Libmemcached.WalkStats

open Chunks Decimal

namespace Libmemcached

open memcached_return_t

/-! ## Splitting

The cursor is what is left of the allocated string, its NUL included. Nothing
is left behind the NUL, so a read there has no result. -/

/-- The inner loop: the bytes up to a dot or the NUL, and the cursor there. -/
def scanComponent : Bytes → Option (Bytes × Bytes)
  | [] => none
  | c :: cs =>
    if c = 0 ∨ c = 46 then some ([], c :: cs)
    else (scanComponent cs).map fun (component, cursor) => (c :: component, cursor)

/-- The outer loop, for up to `count` more components. -/
def splitVersion : Nat → Bytes → Option (List Bytes)
  | 0, _ => some []
  | _ + 1, [] => none
  | count + 1, c :: cs =>
    if c = 0 then some []
    else
      match scanComponent (c :: cs) with
      | none => none
      -- the cursor moves on from a dot, and from the NUL too
      | some (component, cursor) => (splitVersion count cursor.tail).map (component :: ·)

/-- `GIMME_V`. -/
inductive Context
  | scalar
  | list

/-- How `memcached_version` ends. What a read behind the string gives is
undefined. -/
inductive VersionExit
  | no
  | returned (svs : List Bytes)
  | undefined
deriving DecidableEq

/-- What is returned for the value of `version`. -/
def versionOfValue (val : Bytes) : Context → VersionExit
  | .scalar => .returned [cString val]
  | .list =>
    match splitVersion 3 (val ++ [0]) with
    | some components => .returned components
    | none => .undefined

/-- The loop over the keys. Whatever the host, the value is that of the first
one. -/
def versionKeys (first : memcached_stat_st) (context : Context) : List StatKey → Option VersionExit
  | [] => none
  | key :: keys =>
    match memcached_stat_get_value first key.name with
    | none => versionKeys first context keys
    | some val =>
      if key.name ≠ StatKey.version.name then versionKeys first context keys
      else some (versionOfValue val context)

/-- The loop over the hosts. -/
def versionHosts (first : memcached_stat_st) (context : Context) :
    List memcached_stat_st → VersionExit
  | [] => .returned []
  | _ :: stats =>
    match versionKeys first context memcached_stat_keys with
    | some exit => exit
    | none => versionHosts first context stats

/-- `memcached_version`, for the array and the code that `memcached_stat`
gives. -/
def xs_memcached_version (stat : Option (List memcached_stat_st)) (rc : memcached_return_t)
    (context : Context) : VersionExit :=
  match stat with
  | none => .no
  | some stats =>
    if LMC_RETURN_OK rc = false then .no
    else
      match stats with
      | [] => .returned []
      | first :: rest => versionHosts first context (first :: rest)

/-! ## What is returned -/

/-- A string without NULs. -/
structure VersionString where
  text : Bytes
  no_nul : ∀ c ∈ text, c ≠ 0

/-- The components without a trailing empty one, up to `count` of them. -/
def versionComponents (count : Nat) (s : Bytes) : List Bytes :=
  let components := s.splitOn 46
  (if components.getLast? = some [] then components.dropLast else components).take count

/-- Where the split stays inside of the string: it has `count` components, or
it is empty or ends in a dot. -/
def EndsInside (count : Nat) (s : Bytes) : Prop :=
  s = [] ∨ s.getLast? = some 46 ∨ count ≤ s.count 46 + 1

instance (count : Nat) (s : Bytes) : Decidable (EndsInside count s) :=
  inferInstanceAs (Decidable (_ ∨ _ ∨ _))

/-- A part of a version between two dots. -/
def Component (w : Bytes) : Prop := ∀ c ∈ w, c ≠ 0 ∧ c ≠ 46

theorem scanComponent_stop {w : Bytes} (hw : Component w) {c : UInt8} (hc : c = 0 ∨ c = 46)
    (rest : Bytes) : scanComponent (w ++ c :: rest) = some (w, c :: rest) := by
  induction w with
  | nil => rw [List.nil_append, scanComponent, if_pos hc]
  | cons x xs ih =>
    obtain ⟨hx, hxs⟩ := List.forall_mem_cons.mp hw
    have hgo : ¬ (x = 0 ∨ x = 46) := by
      rintro (rfl | rfl)
      · exact hx.1 rfl
      · exact hx.2 rfl
    rw [List.cons_append, scanComponent, if_neg hgo, ih hxs]
    rfl

/-- A component that ends in a dot. -/
theorem splitVersion_dot {w : Bytes} (hw : Component w) (count : Nat) (rest : Bytes) :
    splitVersion (count + 1) (w ++ 46 :: rest) = (splitVersion count rest).map (w :: ·) := by
  have hscan := scanComponent_stop hw (.inr rfl : (46 : UInt8) = 0 ∨ (46 : UInt8) = 46) rest
  obtain ⟨c, cs, hcs⟩ : ∃ c cs, w ++ 46 :: rest = c :: cs :=
    List.exists_cons_of_ne_nil (by simp)
  have hc : c ≠ 0 := by
    cases w with
    | nil =>
      rw [List.nil_append] at hcs
      cases hcs
      decide
    | cons x xs =>
      rw [List.cons_append] at hcs
      obtain ⟨rfl, -⟩ := List.cons.inj hcs
      exact (hw x (List.mem_cons_self ..)).1
  rw [hcs] at hscan
  rw [hcs, splitVersion, if_neg hc, hscan]
  rfl

/-- The last component, which ends in the NUL: the cursor is moved behind
it. -/
theorem splitVersion_nul {w : Bytes} (hw : Component w) (hne : w ≠ []) (count : Nat) :
    splitVersion (count + 1) (w ++ [0]) = (splitVersion count []).map (w :: ·) := by
  have hscan := scanComponent_stop hw (.inl rfl : (0 : UInt8) = 0 ∨ (0 : UInt8) = 46) []
  obtain ⟨c, cs, rfl⟩ := List.exists_cons_of_ne_nil hne
  have hc : c ≠ 0 := (hw c (List.mem_cons_self ..)).1
  rw [List.cons_append] at hscan ⊢
  rw [splitVersion, if_neg hc, hscan]
  rfl

/-- A string has one component, or it has a first one and a dot behind it. -/
theorem component_cases {s : Bytes} (hs : ∀ c ∈ s, c ≠ 0) :
    Component s ∨ ∃ w rest, Component w ∧ (∀ c ∈ rest, c ≠ 0) ∧ s = w ++ 46 :: rest := by
  induction s with
  | nil =>
    left
    intro c hc
    cases hc
  | cons c cs ih =>
    obtain ⟨hc, hcs⟩ := List.forall_mem_cons.mp hs
    by_cases hdot : c = 46
    · subst hdot
      refine Or.inr ⟨[], cs, ?_, hcs, rfl⟩
      intro c hc
      cases hc
    · rcases ih hcs with hone | ⟨w, rest, hw, hrest, rfl⟩
      · exact Or.inl (List.forall_mem_cons.mpr ⟨⟨hc, hdot⟩, hone⟩)
      · exact Or.inr ⟨c :: w, rest, List.forall_mem_cons.mpr ⟨⟨hc, hdot⟩, hw⟩, hrest, rfl⟩

theorem Component.no_dot {w : Bytes} (hw : Component w) : (46 : UInt8) ∉ w :=
  fun hmem => (hw 46 hmem).2 rfl

theorem Component.count {w : Bytes} (hw : Component w) : w.count 46 = 0 :=
  List.count_eq_zero.mpr hw.no_dot

theorem versionComponents_dot {w : Bytes} (hw : Component w) (count : Nat) (rest : Bytes) :
    versionComponents (count + 1) (w ++ 46 :: rest) = w :: versionComponents count rest := by
  have hsplit : (w ++ 46 :: rest).splitOn 46 = w :: rest.splitOn 46 := by
    rw [List.splitOn_append_cons_of_beq _ _ (by rfl), List.splitOn_eq_singleton hw.no_dot]
    rfl
  obtain ⟨x, xs, hxs⟩ := List.exists_cons_of_ne_nil (List.splitOn_ne_nil (46 : UInt8) rest)
  unfold versionComponents
  rw [hsplit, hxs]
  dsimp only
  rw [List.getLast?_cons_cons, List.dropLast_cons_cons]
  split_ifs <;> rfl

theorem versionComponents_one {w : Bytes} (hw : Component w) (count : Nat) :
    versionComponents (count + 1) w = if w = [] then [] else [w] := by
  unfold versionComponents
  rw [List.splitOn_eq_singleton hw.no_dot]
  by_cases hnil : w = [] <;> simp [hnil]

theorem endsInside_dot {w : Bytes} (hw : Component w) (count : Nat) (rest : Bytes) :
    EndsInside (count + 1) (w ++ 46 :: rest) ↔ EndsInside count rest := by
  have hcount : (w ++ 46 :: rest).count 46 = rest.count 46 + 1 := by
    rw [List.count_append, hw.count, List.count_cons_self, Nat.zero_add]
  have hlast : (w ++ 46 :: rest).getLast? = some 46 ↔ rest = [] ∨ rest.getLast? = some 46 := by
    cases rest with
    | nil => simp
    | cons x xs => simp [List.getLast?_cons_cons]
  unfold EndsInside
  rw [hcount, hlast]
  constructor
  · rintro (h | (h | h) | h)
    · simp at h
    · exact Or.inl h
    · exact Or.inr (Or.inl h)
    · exact Or.inr (Or.inr (by omega))
  · rintro (h | h | h)
    · exact Or.inr (Or.inl (Or.inl h))
    · exact Or.inr (Or.inl (Or.inr h))
    · exact Or.inr (Or.inr (by omega))

theorem endsInside_of_count {count : Nat} {s : Bytes} (h : count ≤ s.count 46 + 1) :
    EndsInside count s := Or.inr (Or.inr h)

/-- What the split gives, or that it reads behind the string. -/
theorem splitVersion_eq (count : Nat) {s : Bytes} (hs : ∀ c ∈ s, c ≠ 0) :
    splitVersion count (s ++ [0]) =
      if EndsInside count s then some (versionComponents count s) else none := by
  induction count generalizing s with
  | zero =>
    rw [splitVersion, if_pos (endsInside_of_count (Nat.zero_le _))]
    rfl
  | succ count ih =>
    rcases component_cases hs with hone | ⟨w, rest, hw, hrest, rfl⟩
    · by_cases hnil : s = []
      · have hinside : EndsInside (count + 1) s := Or.inl hnil
        rw [if_pos hinside, hnil]
        rfl
      · rw [splitVersion_nul hone hnil, versionComponents_one hone, if_neg hnil]
        cases count with
        | zero =>
          rw [if_pos (endsInside_of_count (Nat.le_add_left 1 _))]
          rfl
        | succ count =>
          have hbehind : ¬ EndsInside (count + 1 + 1) s := by
            rintro (h | h | h)
            · exact hnil h
            · exact hone.no_dot (List.mem_of_getLast? h)
            · rw [hone.count] at h
              omega
          rw [if_neg hbehind]
          rfl
    · rw [List.append_assoc, List.cons_append, splitVersion_dot hw, ih hrest,
        versionComponents_dot hw]
      simp only [endsInside_dot hw]
      split_ifs <;> rfl

/-! ## The call -/

/-- The figures have this version. -/
def HasVersion (stat : memcached_stat_st) (s : VersionString) : Prop := stat .version = .text s.text

theorem get_value_version {stat : memcached_stat_st} {s : VersionString} (h : HasVersion stat s) :
    memcached_stat_get_value stat StatKey.version.name = some s.text := by
  have hfind : getValueOrder.find? (fun k => k.name.isPrefixOf StatKey.version.name) =
      some .version := by decide
  unfold memcached_stat_get_value
  rw [hfind, Option.map_some, h]
  rfl

/-- The loops come to the version of the first host. -/
theorem xs_memcached_version_eq {first : memcached_stat_st} {s : VersionString}
    (h : HasVersion first s) (rest : List memcached_stat_st) {rc : memcached_return_t}
    (hrc : LMC_RETURN_OK rc = true) (context : Context) :
    xs_memcached_version (some (first :: rest)) rc context = versionOfValue s.text context := by
  have hbefore : ∀ key ∈ [StatKey.pid, .uptime, .time],
      ∃ val, memcached_stat_get_value first key.name = some val := by
    intro key hkey
    have hfound : ∀ key ∈ [StatKey.pid, .uptime, .time],
        (getValueOrder.find? fun k => k.name.isPrefixOf key.name).isSome = true := by decide
    obtain ⟨k, hk⟩ := Option.isSome_iff_exists.mp (hfound key hkey)
    unfold memcached_stat_get_value
    rw [hk]
    exact ⟨_, rfl⟩
  obtain ⟨pid, hpid⟩ := hbefore .pid (by decide)
  obtain ⟨uptime, huptime⟩ := hbefore .uptime (by decide)
  obtain ⟨time, htime⟩ := hbefore .time (by decide)
  have hkeys : versionKeys first context memcached_stat_keys =
      some (versionOfValue s.text context) := by
    unfold memcached_stat_keys
    rw [versionKeys, hpid]
    dsimp only
    rw [if_pos (by decide), versionKeys, huptime]
    dsimp only
    rw [if_pos (by decide), versionKeys, htime]
    dsimp only
    rw [if_pos (by decide), versionKeys, get_value_version h]
    dsimp only
    rw [if_neg (by decide)]
  unfold xs_memcached_version
  simp only [hrc, Bool.true_eq_false, if_false]
  rw [versionHosts, hkeys]

/-- In scalar context the version itself is returned, and in list context its
first up to three components, with no read behind the string. -/
def SplitsItsVersion (stats : List memcached_stat_st) (rc : memcached_return_t)
    (s : VersionString) : Prop :=
  xs_memcached_version (some stats) rc .scalar = .returned [s.text] ∧
    xs_memcached_version (some stats) rc .list = .returned (versionComponents 3 s.text)

theorem versionOfValue_list (s : VersionString) :
    versionOfValue s.text .list = .returned (versionComponents 3 s.text) ↔ EndsInside 3 s.text := by
  unfold versionOfValue
  rw [splitVersion_eq 3 s.no_nul]
  split_ifs with hinside
  · exact iff_of_true rfl hinside
  · refine iff_of_false ?_ hinside
    rintro ⟨⟩

/-- The version of the first host is split inside of its string exactly when
it has three components or more, or none that ends in the NUL. -/
theorem a_version_is_split_inside_its_string_iff {first : memcached_stat_st} {s : VersionString}
    (h : HasVersion first s) (rest : List memcached_stat_st) {rc : memcached_return_t}
    (hrc : LMC_RETURN_OK rc = true) :
    SplitsItsVersion (first :: rest) rc s ↔
      s.text = [] ∨ s.text.getLast? = some 46 ∨ 2 ≤ s.text.count 46 := by
  have hscalar : versionOfValue s.text .scalar = .returned [s.text] := by
    have hstring : cString s.text = s.text := by
      unfold cString
      apply List.takeWhile_eq_self_iff.mpr
      intro c hc
      simpa using s.no_nul c hc
    unfold versionOfValue
    rw [hstring]
  have hcount : 3 ≤ s.text.count 46 + 1 ↔ 2 ≤ s.text.count 46 := by omega
  unfold SplitsItsVersion
  rw [xs_memcached_version_eq h rest hrc, xs_memcached_version_eq h rest hrc, versionOfValue_list]
  unfold EndsInside
  rw [hcount]
  exact and_iff_right hscalar

/-- The figures of a host that reports a version. -/
def figuresOf (s : VersionString) : memcached_stat_st :=
  Function.update zeroedStat .version (.text s.text)

theorem hasVersion_figuresOf (s : VersionString) : HasVersion (figuresOf s) s :=
  Function.update_self ..

/-- `1.4.5`. -/
def threeParts : VersionString := ⟨ascii ['1', '.', '4', '.', '5'], by simp [ascii]⟩

/-- `1.4`. -/
def twoParts : VersionString := ⟨ascii ['1', '.', '4'], by simp [ascii]⟩

/-- The theorem at a version of three components. -/
theorem three_parts_are_split :
    SplitsItsVersion [figuresOf threeParts] SUCCESS threeParts ↔
      threeParts.text = [] ∨ threeParts.text.getLast? = some 46 ∨ 2 ≤ threeParts.text.count 46 :=
  a_version_is_split_inside_its_string_iff (hasVersion_figuresOf threeParts) [] rfl

/-- A version of two components is read behind its NUL. -/
theorem two_parts_are_read_behind_the_nul :
    HasVersion (figuresOf twoParts) twoParts ∧
      xs_memcached_version (some [figuresOf twoParts]) SUCCESS .list = .undefined ∧
      ¬ SplitsItsVersion [figuresOf twoParts] SUCCESS twoParts := by
  have hlist : xs_memcached_version (some [figuresOf twoParts]) SUCCESS .list = .undefined := by
    decide +kernel
  refine ⟨hasVersion_figuresOf twoParts, hlist, ?_⟩
  rintro ⟨-, hsplit⟩
  rw [hlist] at hsplit
  cases hsplit

/-! ## The versions that hosts send

Whatever the lines of a text host are, its figures have a version without
NULs. -/

theorem hasVersion_zeroed : ∃ s, HasVersion zeroedStat s :=
  ⟨⟨[], fun c hc => by cases hc⟩, rfl⟩

theorem cString_no_nul (value : Bytes) : ∀ c ∈ cString value, c ≠ 0 := by
  intro c hc
  simpa using List.mem_takeWhile_imp hc

/-- One line keeps this. -/
theorem set_data_hasVersion {stat stat' : memcached_stat_st} (h : ∃ s, HasVersion stat s)
    {key value : Bytes} (hvalue : ∀ c ∈ value, c ≠ 0) (hset : set_data stat key value = some stat') :
    ∃ s, HasVersion stat' s := by
  unfold set_data at hset
  split at hset
  · cases hset
    exact h
  · rename_i k _
    obtain ⟨field, hfield, rfl⟩ := Option.map_eq_some_iff.mp hset
    by_cases hk : k = .version
    · subst hk
      simp only [fieldFrom, StatKey.kind] at hfield
      split_ifs at hfield
      cases hfield
      exact ⟨⟨value, hvalue⟩, Function.update_self ..⟩
    · obtain ⟨s, hs⟩ := h
      exact ⟨s, (Function.update_of_ne (Ne.symm hk) _ _).trans hs⟩

theorem readLines_hasVersion (fuel : Nat) {host : memcached_server_st} {result : memcached_result_st}
    {stat stat' : memcached_stat_st} {rc : memcached_return_t} (h : ∃ s, HasVersion stat s)
    (hread : memcached_stat_st.readLines fuel host result stat = some (stat', rc)) :
    ∃ s, HasVersion stat' s := by
  induction fuel generalizing host result stat with
  | zero =>
    rw [memcached_stat_st.readLines] at hread
    cases hread
    exact h
  | succ fuel ih =>
    rw [memcached_stat_st.readLines] at hread
    dsimp only at hread
    split at hread
    · split at hread
      · cases hread
      · rename_i hset
        exact ih (set_data_hasVersion h (cString_no_nul _) hset) hread
    · cases hread
      exact h

theorem fetchFigures_hasVersion {world : StatsWorld} {args : Option Bytes}
    {servers : List ServerAddr} {i : Nat} {stats : List memcached_stat_st} {rc : memcached_return_t}
    (h : fetchFigures world args i servers = some (stats, rc)) :
    ∀ stat ∈ stats, ∃ s, HasVersion stat s := by
  induction servers generalizing i stats rc with
  | nil =>
    rw [fetchFigures] at h
    cases h
    intro stat hstat
    cases hstat
  | cons server servers ih =>
    rw [fetchFigures] at h
    split at h
    · cases h
    · rename_i first code hfetch
      split at h
      · cases h
      · rename_i others code' hothers
        cases h
        refine List.forall_mem_cons.mpr ⟨?_, ih hothers⟩
        unfold memcached_stat_st.ascii_stats_fetch at hfetch
        split at hfetch
        · cases hfetch
          exact hasVersion_zeroed
        · split at hfetch
          split at hfetch
          · exact readLines_hasVersion _ hasVersion_zeroed hfetch
          · cases hfetch
            exact hasVersion_zeroed

/-- `memcached_version` on text hosts: an array of figures has versions that
are strings, so that the split of the first one is decided by its dots. -/
theorem version_of_text_hosts {memory : Bool} {world : StatsWorld} {servers : List ServerAddr}
    {first : memcached_stat_st} {rest : List memcached_stat_st} {rc : memcached_return_t}
    (h : memcached_stat_array memory world servers none = some (some (first :: rest), rc))
    (hrc : LMC_RETURN_OK rc = true) : ∃ s : VersionString, HasVersion first s ∧
      xs_memcached_version (some (first :: rest)) rc .scalar = versionOfValue s.text .scalar ∧
      xs_memcached_version (some (first :: rest)) rc .list =
        if EndsInside 3 s.text then .returned (versionComponents 3 s.text) else .undefined := by
  unfold memcached_stat_array at h
  split_ifs at h
  · obtain ⟨⟨stats, rc'⟩, hfetch, hout⟩ := Option.map_eq_some_iff.mp h
    simp only [Prod.mk.injEq, Option.some.injEq] at hout
    obtain ⟨rfl, rfl⟩ := hout
    obtain ⟨s, hs⟩ := fetchFigures_hasVersion hfetch first (List.mem_cons_self ..)
    refine ⟨s, hs, xs_memcached_version_eq hs rest hrc .scalar, ?_⟩
    rw [xs_memcached_version_eq hs rest hrc, versionOfValue, splitVersion_eq 3 s.no_nul]
    split_ifs <;> rfl
  · cases h

end Libmemcached
