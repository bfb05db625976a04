-- The constants of the library: how Makefile.PL reads them from the lines of
-- the headers, the aliases of constant() it writes, and the export tags that
-- API.pm makes of them.
import Libmemcached.Lib.Override
import Libmemcached.Lib.Decimal
import Mathlib.Data.List.AList
import Mathlib.Data.List.Infix
import Mathlib.Data.List.TakeWhile

open Chunks Decimal Override

namespace Libmemcached

/-! ## The regular expressions

A blank and a word character never meet in one class, so that each greedy run
is the only one that can match. -/

/-- `\w`. -/
def isword (c : UInt8) : Bool :=
  isdigit c || (65 ≤ c && c ≤ 90) || (97 ≤ c && c ≤ 122) || c == 95

/-- `(\w+)` at the front. -/
def wordAt (s : Bytes) : Option Bytes :=
  if s.takeWhile isword = [] then none else some (s.takeWhile isword)

def memcachedPrefix : Bytes := ascii ['M', 'E', 'M', 'C', 'A', 'C', 'H', 'E', 'D', '_']

/-- `(MEMCACHED_\w+)` at the front. -/
def constantAt (s : Bytes) : Option Bytes :=
  match s.dropPrefix? memcachedPrefix with
  | none => none
  | some rest => (wordAt rest).map (memcachedPrefix ++ ·)

/-- `\s+` at the front, and what comes behind it. -/
def blanksAt : Bytes → Option Bytes
  | [] => none
  | c :: cs => if isspace c then some (cs.dropWhile isspace) else none

/-- `m/^\s*}\s*(\w+)/`. -/
def closesEnum (line : Bytes) : Option Bytes :=
  match line.dropWhile isspace with
  | [] => none
  | c :: rest => if c = 125 then wordAt (rest.dropWhile isspace) else none

/-- `m/^\s*(MEMCACHED_\w+)/`. -/
def listsConstant (line : Bytes) : Option Bytes := constantAt (line.dropWhile isspace)

def typedefWord : Bytes := ascii ['t', 'y', 'p', 'e', 'd', 'e', 'f']

def enumWord : Bytes := ascii ['e', 'n', 'u', 'm']

def defineWord : Bytes := ascii ['d', 'e', 'f', 'i', 'n', 'e']

/-- `m/^\s*typedef\s+enum/`. -/
def opensEnum (line : Bytes) : Bool :=
  match (line.dropWhile isspace).dropPrefix? typedefWord with
  | none => false
  | some rest =>
    match blanksAt rest with
    | none => false
    | some rest => (rest.dropPrefix? enumWord).isSome

/-- `\#\s*define\s+(MEMCACHED_\w+)` at the front. -/
def defineAt : Bytes → Option Bytes
  | [] => none
  | c :: cs =>
    if c = 35 then
      match (cs.dropWhile isspace).dropPrefix? defineWord with
      | none => none
      | some rest =>
        match blanksAt rest with
        | none => none
        | some rest => constantAt rest
    else none

/-- `m/\#\s*define\s+(MEMCACHED_\w+)/`, which may match anywhere. -/
def definesConstant : Bytes → Option Bytes
  | [] => none
  | c :: cs =>
    match defineAt (c :: cs) with
    | some symbol => some symbol
    | none => definesConstant cs

/-- `/_H$/`. -/
def endsInH (symbol : Bytes) : Bool := (ascii ['_', 'H']).isSuffixOf symbol

/-- The callbacks that are deprecated. -/
def deprecatedCallbacks : List Bytes :=
  [ascii ['M', 'A', 'L', 'L', 'O', 'C'], ascii ['R', 'E', 'A', 'L', 'L', 'O', 'C'],
    ascii ['F', 'R', 'E', 'E']].map fun name =>
      memcachedPrefix ++ ascii ['C', 'A', 'L', 'L', 'B', 'A', 'C', 'K', '_'] ++ name ++
        ascii ['_', 'F', 'U', 'N', 'C', 'T', 'I', 'O', 'N']

/-- `/MEMCACHED_CALLBACK_(MALLOC|REALLOC|FREE)_FUNCTION/`, which may match
anywhere in the symbol. -/
def namesCallback (symbol : Bytes) : Bool :=
  deprecatedCallbacks.any fun name => decide (name <:+: symbol)

/-! ## The scan -/

/-- `%libmemcached_const`: the names and their tags. -/
abbrev ConstHash := AList fun _ : Bytes => Bytes

/-- The tag of the defines. -/
def definesTag : Bytes := ascii ['d', 'e', 'f', 'i', 'n', 'e', 's']

/-- What the scan carries from line to line, and from header to header. -/
structure HeaderScan where
  in_enum : Bool
  const : List Bytes
  libmemcached_const : ConstHash

/-- The body of the loop over the lines. -/
def scanLine (scan : HeaderScan) (line : Bytes) : HeaderScan :=
  if scan.in_enum then
    match closesEnum line with
    | some tag =>
      { in_enum := false
        const := []
        libmemcached_const :=
          scan.const.foldl (fun hash symbol => hash.insert symbol tag) scan.libmemcached_const }
    | none =>
      match listsConstant line with
      | none => scan
      | some symbol =>
        if namesCallback symbol then scan else { scan with const := scan.const ++ [symbol] }
  else if opensEnum line then { scan with in_enum := true }
  else
    match definesConstant line with
    | none => scan
    | some symbol =>
      if endsInH symbol then scan
      else { scan with libmemcached_const := scan.libmemcached_const.insert symbol definesTag }

/-- `extract_libmemcached_constants`, for the lines of all headers. -/
def extract_libmemcached_constants (lines : List Bytes) : ConstHash :=
  (lines.foldl scanLine ⟨false, [], ∅⟩).libmemcached_const

/-- `libmemcached_tags`: the names under each tag. -/
def libmemcached_tags (hash : ConstHash) : AList fun _ : Bytes => List Bytes :=
  hash.foldl (fun tags symbol tag => tags.insert tag ((tags.lookup tag).getD [] ++ [symbol])) ∅

/-- The names that are exported under a tag. -/
def exportedUnder (hash : ConstHash) (tag : Bytes) : List Bytes :=
  ((libmemcached_tags hash).lookup tag).getD []

/-- The alias of `constant()` for a name with this value: `ix`, which is an
`I32`, is returned as an `IV`. -/
def constantAlias (value : Int) : Int := value.bmod 4294967296

/-! ## The layout of the headers -/

/-- A run of blanks. -/
structure Blanks where
  text : Bytes
  blank : ∀ c ∈ text, isspace c = true

/-- What comes behind a word. -/
structure AfterWord where
  text : Bytes
  ends : ∀ c ∈ text.head?, isword c = false

structure Identifier where
  text : Bytes
  word : ∀ c ∈ text, isword c = true
  not_nil : text ≠ []

/-- A name `MEMCACHED_*`. -/
def Identifier.IsConstant (name : Identifier) : Prop :=
  memcachedPrefix <+: name.text ∧ name.text ≠ memcachedPrefix

instance (name : Identifier) : Decidable name.IsConstant := inferInstanceAs (Decidable (_ ∧ _))

/-- A line that opens an enum. -/
structure EnumOpening where
  indent : Blanks
  gap : Blanks
  apart : gap.text ≠ []
  after : AfterWord

def EnumOpening.line (l : EnumOpening) : Bytes :=
  l.indent.text ++ (typedefWord ++ (l.gap.text ++ (enumWord ++ l.after.text)))

/-- The line of an enumerator: its name, and what may come behind it. -/
structure EnumeratorLine where
  indent : Blanks
  name : Identifier
  after : AfterWord

def EnumeratorLine.line (l : EnumeratorLine) : Bytes :=
  l.indent.text ++ (l.name.text ++ l.after.text)

/-- A line between enumerators. A comment, a preprocessor line and a lone
bracket start with no word, and an empty line does not start at all. -/
structure BetweenLine where
  line : Bytes
  no_word : ∀ c ∈ (line.dropWhile isspace).head?, isword c = false ∧ c ≠ 125

inductive BodyLine
  | enumerator (l : EnumeratorLine)
  | between (l : BetweenLine)

def BodyLine.line : BodyLine → Bytes
  | .enumerator l => l.line
  | .between l => l.line

/-- The line that closes an enum and names it. -/
structure EnumClosing where
  indent : Blanks
  gap : Blanks
  name : Identifier
  after : AfterWord

def EnumClosing.line (l : EnumClosing) : Bytes :=
  l.indent.text ++ (125 :: (l.gap.text ++ (l.name.text ++ l.after.text)))

/-- `#define MEMCACHED_X value`. -/
structure DefineLine where
  indent : Blanks
  inner : Blanks
  gap : Blanks
  apart : gap.text ≠ []
  name : Identifier
  constant : name.IsConstant
  value : AfterWord
  object_like : value.text.head? ≠ some 40

def DefineLine.line (l : DefineLine) : Bytes :=
  l.indent.text ++
    (35 :: (l.inner.text ++ (defineWord ++ (l.gap.text ++ (l.name.text ++ l.value.text)))))

/-- A line outside of the enums that declares no constant: `typedef enum` does
not start it, and `#define MEMCACHED_X` is nowhere in it. -/
structure OtherLine where
  line : Bytes
  no_enum : ¬ ∃ indent gap after : Bytes, (∀ c ∈ indent, isspace c = true) ∧
    (∀ c ∈ gap, isspace c = true) ∧ gap ≠ [] ∧
    line = indent ++ (typedefWord ++ (gap ++ (enumWord ++ after)))
  no_define : ¬ ∃ before inner gap after : Bytes, (∀ c ∈ inner, isspace c = true) ∧
    (∀ c ∈ gap, isspace c = true) ∧ gap ≠ [] ∧ (∃ c ∈ after.head?, isword c = true) ∧
    line = before ++ (35 :: (inner ++ (defineWord ++ (gap ++ (memcachedPrefix ++ after)))))

inductive HeaderItem
  | enum (opening : EnumOpening) (body : List BodyLine) (closing : EnumClosing)
  | define (l : DefineLine)
  | other (l : OtherLine)

/-- The lines of an item. -/
def HeaderItem.lines : HeaderItem → List Bytes
  | .enum opening body closing => opening.line :: (body.map BodyLine.line ++ [closing.line])
  | .define l => [l.line]
  | .other l => [l.line]

/-- The enumerator `MEMCACHED_*` of a line in the enum of this name. -/
def BodyLine.constant (tag : Bytes) : BodyLine → Option (Bytes × Bytes)
  | .enumerator l => if l.name.IsConstant then some (l.name.text, tag) else none
  | .between _ => none

/-- The enumerators `MEMCACHED_*` of an item, with the name that closes their
enum. -/
def HeaderItem.enumerators : HeaderItem → List (Bytes × Bytes)
  | .enum _ body closing => body.filterMap (BodyLine.constant closing.name.text)
  | .define _ => []
  | .other _ => []

/-- The defines `MEMCACHED_*` of an item. -/
def HeaderItem.defines : HeaderItem → List (Bytes × Bytes)
  | .enum _ _ _ => []
  | .define l => [(l.name.text, definesTag)]
  | .other _ => []

/-- The constants that an item declares, with their tags. -/
def HeaderItem.declared (item : HeaderItem) : List (Bytes × Bytes) :=
  (item.enumerators.filter fun b => b.1 ∉ deprecatedCallbacks) ++
    item.defines.filter fun b => !endsInH b.1

/-- What the scan keeps of an item. -/
def HeaderItem.kept (item : HeaderItem) : List (Bytes × Bytes) :=
  (item.enumerators.filter fun b => !namesCallback b.1) ++
    item.defines.filter fun b => !endsInH b.1

/-! ## One line -/

theorem dropBlanks {indent : Bytes} (hindent : ∀ c ∈ indent, isspace c = true) {c : UInt8}
    (hc : isspace c = false) (rest : Bytes) :
    (indent ++ c :: rest).dropWhile isspace = c :: rest := by
  rw [List.dropWhile_append_of_pos hindent, List.dropWhile_cons_of_neg (by simp [hc])]

theorem isspace_of_isword {c : UInt8} (h : isword c = true) : isspace c = false := by
  simp only [isword, isdigit, Bool.or_eq_true, Bool.and_eq_true, decide_eq_true_eq, beq_iff_eq,
    UInt8.le_iff_toNat_le, ← UInt8.toNat_inj] at h
  simp only [isspace, Bool.or_eq_false_iff, Bool.and_eq_false_iff, decide_eq_false_iff_not,
    beq_eq_false_iff_ne, ne_eq, UInt8.le_iff_toNat_le, ← UInt8.toNat_inj]
  simp at h ⊢
  omega

theorem dropPrefix_iff {s p rest : Bytes} : s.dropPrefix? p = some rest ↔ s = p ++ rest := by
  rw [List.dropPrefix?_eq_some_iff]
  constructor
  · rintro ⟨p', rfl, hp⟩
    rw [eq_of_beq hp]
  · rintro rfl
    exact ⟨p, rfl, beq_self_eq_true p⟩

/-- A word is read up to its end. -/
theorem takeWhile_word {w : Bytes} (hw : ∀ c ∈ w, isword c = true) (after : AfterWord) :
    (w ++ after.text).takeWhile isword = w := by
  rw [List.takeWhile_append_of_pos hw]
  cases htext : after.text with
  | nil => rw [List.takeWhile_nil, List.append_nil]
  | cons c cs =>
    have hc : isword c = false := after.ends c (by rw [htext]; rfl)
    rw [List.takeWhile_cons_of_neg (by simp [hc]), List.append_nil]

theorem wordAt_identifier (name : Identifier) (after : AfterWord) :
    wordAt (name.text ++ after.text) = some name.text := by
  unfold wordAt
  rw [takeWhile_word name.word, if_neg name.not_nil]

theorem Identifier.dropBlanks (name : Identifier) {indent : Bytes}
    (hindent : ∀ c ∈ indent, isspace c = true) (rest : Bytes) :
    (indent ++ (name.text ++ rest)).dropWhile isspace = name.text ++ rest := by
  obtain ⟨c, cs, hcs⟩ := List.exists_cons_of_ne_nil name.not_nil
  rw [hcs, List.cons_append]
  apply Libmemcached.dropBlanks hindent
  apply isspace_of_isword
  apply name.word
  rw [hcs]
  exact List.mem_cons_self ..

theorem memcachedPrefix_word : ∀ c ∈ memcachedPrefix, isword c = true := by
  simp [memcachedPrefix, ascii, isword, isdigit]

/-- What `MEMCACHED_` is followed by, in a line that starts with a name. -/
theorem constantAt_identifier (name : Identifier) (after : AfterWord) :
    constantAt (name.text ++ after.text) = if name.IsConstant then some name.text else none := by
  have hname := takeWhile_word name.word after
  unfold constantAt
  split
  · rename_i hdrop
    rw [if_neg]
    rintro ⟨⟨w, hw⟩, -⟩
    rw [dropPrefix_iff.mpr (by rw [← hw, List.append_assoc])] at hdrop
    cases hdrop
  · rename_i rest hdrop
    rw [dropPrefix_iff.mp hdrop, List.takeWhile_append_of_pos memcachedPrefix_word] at hname
    unfold wordAt
    by_cases hnil : rest.takeWhile isword = []
    · rw [if_pos hnil, Option.map_none, if_neg]
      rintro ⟨-, hne⟩
      apply hne
      rw [← hname, hnil, List.append_nil]
    · rw [if_neg hnil, Option.map_some, hname, if_pos]
      refine ⟨⟨_, hname⟩, ?_⟩
      intro heq
      rw [← hname] at heq
      exact hnil (List.append_right_eq_self.mp heq)

/-! ### The lines of an enum -/

theorem closesEnum_closing (l : EnumClosing) : closesEnum l.line = some l.name.text := by
  have hdrop : l.line.dropWhile isspace = 125 :: (l.gap.text ++ (l.name.text ++ l.after.text)) :=
    dropBlanks l.indent.blank (by decide) _
  unfold closesEnum
  rw [hdrop]
  dsimp only
  rw [if_pos rfl, l.name.dropBlanks l.gap.blank, wordAt_identifier]

theorem closesEnum_enumerator (l : EnumeratorLine) : closesEnum l.line = none := by
  obtain ⟨c, cs, hcs⟩ := List.exists_cons_of_ne_nil l.name.not_nil
  have hc : c ≠ 125 := by
    rintro rfl
    have hword := l.name.word 125 (by rw [hcs]; exact List.mem_cons_self ..)
    exact absurd hword (by decide)
  unfold closesEnum EnumeratorLine.line
  rw [l.name.dropBlanks l.indent.blank, hcs, List.cons_append]
  exact if_neg hc

theorem listsConstant_enumerator (l : EnumeratorLine) :
    listsConstant l.line = if l.name.IsConstant then some l.name.text else none := by
  unfold listsConstant EnumeratorLine.line
  rw [l.name.dropBlanks l.indent.blank, constantAt_identifier]

theorem closesEnum_between (l : BetweenLine) : closesEnum l.line = none := by
  have hno := l.no_word
  unfold closesEnum
  split
  · rfl
  · rename_i c rest hdrop
    rw [hdrop] at hno
    exact if_neg (hno c rfl).2

theorem listsConstant_between (l : BetweenLine) : listsConstant l.line = none := by
  have hno := l.no_word
  unfold listsConstant constantAt
  split
  · rfl
  · rename_i rest hdrop
    rw [dropPrefix_iff.mp hdrop] at hno
    have hword := (hno 77 rfl).1
    exact absurd hword (by decide)

/-! ### The lines outside of the enums -/

theorem blanksAt_gap {gap : Bytes} (hgap : ∀ c ∈ gap, isspace c = true) (hne : gap ≠ []) {c : UInt8}
    (hc : isspace c = false) (rest : Bytes) : blanksAt (gap ++ c :: rest) = some (c :: rest) := by
  obtain ⟨b, bs, rfl⟩ := List.exists_cons_of_ne_nil hne
  obtain ⟨hb, hbs⟩ := List.forall_mem_cons.mp hgap
  rw [List.cons_append, blanksAt, if_pos hb, dropBlanks hbs hc]

/-- A run of blanks that was read. -/
theorem gap_of_blanksAt {s rest : Bytes} (h : blanksAt s = some rest) :
    ∃ gap, (∀ c ∈ gap, isspace c = true) ∧ gap ≠ [] ∧ s = gap ++ rest := by
  cases s with
  | nil => cases h
  | cons c cs =>
    rw [blanksAt] at h
    split_ifs at h with hc
    cases h
    refine ⟨c :: cs.takeWhile isspace, ?_, List.cons_ne_nil _ _, ?_⟩
    · exact List.forall_mem_cons.mpr ⟨hc, fun x hx => List.mem_takeWhile_imp hx⟩
    · rw [List.cons_append, List.takeWhile_append_dropWhile]

theorem opensEnum_opening (l : EnumOpening) : opensEnum l.line = true := by
  have hdrop : l.line.dropWhile isspace =
      typedefWord ++ (l.gap.text ++ (enumWord ++ l.after.text)) :=
    dropBlanks l.indent.blank (by decide) _
  have hgap : blanksAt (l.gap.text ++ (enumWord ++ l.after.text)) =
      some (enumWord ++ l.after.text) :=
    blanksAt_gap l.gap.blank l.apart (by decide) _
  unfold opensEnum
  rw [hdrop, dropPrefix_iff.mpr rfl]
  dsimp only
  rw [hgap]
  dsimp only
  rw [dropPrefix_iff.mpr rfl]
  rfl

theorem opensEnum_define (l : DefineLine) : opensEnum l.line = false := by
  have hdrop : l.line.dropWhile isspace = 35 :: (l.inner.text ++ (defineWord ++ (l.gap.text ++
      (l.name.text ++ l.value.text)))) :=
    dropBlanks l.indent.blank (by decide) _
  unfold opensEnum
  rw [hdrop]
  rfl

theorem opensEnum_other (l : OtherLine) : opensEnum l.line = false := by
  rw [← Bool.not_eq_true]
  intro h
  apply l.no_enum
  unfold opensEnum at h
  split at h
  · cases h
  · rename_i rest htypedef
    split at h
    · cases h
    · rename_i rest' hblanks
      obtain ⟨gap, hgap, hne, rfl⟩ := gap_of_blanksAt hblanks
      obtain ⟨after, hafter⟩ := Option.isSome_iff_exists.mp h
      refine ⟨l.line.takeWhile isspace, gap, after, ?_, hgap, hne, ?_⟩
      · intro c hc
        exact List.mem_takeWhile_imp hc
      · rw [← dropPrefix_iff.mp hafter, ← dropPrefix_iff.mp htypedef,
          List.takeWhile_append_dropWhile]

theorem defineAt_define (l : DefineLine) :
    defineAt (35 :: (l.inner.text ++ (defineWord ++ (l.gap.text ++
      (l.name.text ++ l.value.text))))) = some l.name.text := by
  have hinner : (l.inner.text ++ (defineWord ++ (l.gap.text ++
      (l.name.text ++ l.value.text)))).dropWhile isspace =
        defineWord ++ (l.gap.text ++ (l.name.text ++ l.value.text)) :=
    dropBlanks l.inner.blank (by decide) _
  have hgap : blanksAt (l.gap.text ++ (l.name.text ++ l.value.text)) =
      some (l.name.text ++ l.value.text) := by
    obtain ⟨c, cs, hcs⟩ := List.exists_cons_of_ne_nil l.name.not_nil
    have hc := l.name.word c (by rw [hcs]; exact List.mem_cons_self ..)
    rw [hcs, List.cons_append]
    exact blanksAt_gap l.gap.blank l.apart (isspace_of_isword hc) _
  rw [defineAt, if_pos rfl, hinner, dropPrefix_iff.mpr rfl]
  dsimp only
  rw [hgap]
  dsimp only
  rw [constantAt_identifier, if_pos l.constant]

theorem definesConstant_blanks {indent : Bytes} (hindent : ∀ c ∈ indent, isspace c = true)
    (rest : Bytes) : definesConstant (indent ++ rest) = definesConstant rest := by
  induction indent with
  | nil => rfl
  | cons c cs ih =>
    obtain ⟨hc, hcs⟩ := List.forall_mem_cons.mp hindent
    have hno : c ≠ 35 := by
      rintro rfl
      exact absurd hc (by decide)
    rw [List.cons_append, definesConstant, defineAt, if_neg hno]
    exact ih hcs

theorem definesConstant_define (l : DefineLine) : definesConstant l.line = some l.name.text := by
  unfold DefineLine.line
  rw [definesConstant_blanks l.indent.blank, definesConstant, defineAt_define]

/-- A define that was read stands in the line. -/
theorem define_of_definesConstant {line symbol : Bytes} (h : definesConstant line = some symbol) :
    ∃ before inner gap after : Bytes, (∀ c ∈ inner, isspace c = true) ∧
      (∀ c ∈ gap, isspace c = true) ∧ gap ≠ [] ∧ (∃ c ∈ after.head?, isword c = true) ∧
      line = before ++ (35 :: (inner ++ (defineWord ++ (gap ++ (memcachedPrefix ++ after))))) := by
  induction line with
  | nil => cases h
  | cons c cs ih =>
    rw [definesConstant] at h
    split at h
    · rename_i found hfound
      rw [defineAt] at hfound
      split_ifs at hfound with hc
      subst hc
      split at hfound
      · cases hfound
      · rename_i rest hdefine
        split at hfound
        · cases hfound
        · rename_i rest' hblanks
          obtain ⟨gap, hgap, hne, rfl⟩ := gap_of_blanksAt hblanks
          unfold constantAt at hfound
          split at hfound
          · cases hfound
          · rename_i after hprefix
            refine ⟨[], cs.takeWhile isspace, gap, after, ?_, hgap, hne, ?_, ?_⟩
            · intro x hx
              exact List.mem_takeWhile_imp hx
            · cases after with
              | nil => cases hfound
              | cons x xs =>
                refine ⟨x, rfl, ?_⟩
                by_contra hx
                unfold wordAt at hfound
                rw [List.takeWhile_cons_of_neg hx, if_pos rfl] at hfound
                cases hfound
            · rw [← dropPrefix_iff.mp hprefix, ← dropPrefix_iff.mp hdefine,
                List.takeWhile_append_dropWhile]
              rfl
    · obtain ⟨before, inner, gap, after, hinner, hgap, hne, hword, rfl⟩ := ih h
      exact ⟨c :: before, inner, gap, after, hinner, hgap, hne, hword, rfl⟩

theorem definesConstant_other (l : OtherLine) : definesConstant l.line = none := by
  cases h : definesConstant l.line with
  | none => rfl
  | some symbol => exact absurd (define_of_definesConstant h) l.no_define

/-! ## The scan of an item -/

/-- The bindings entered into the hash, oldest first. -/
def enterAll (hash : ConstHash) (bs : List (Bytes × Bytes)) : ConstHash :=
  bs.foldl (fun hash b => hash.insert b.1 b.2) hash

theorem enterAll_lookup (hash : ConstHash) (bs : List (Bytes × Bytes)) :
    (fun name => (enterAll hash bs).lookup name) = override (fun name => hash.lookup name) bs := by
  induction bs generalizing hash with
  | nil => rfl
  | cons b bs ih =>
    have hinsert : (fun name => (hash.insert b.1 b.2).lookup name) =
        Function.update (fun name => hash.lookup name) b.1 (some b.2) := by
      funext name
      by_cases hname : name = b.1
      · subst hname
        rw [AList.lookup_insert, Function.update_self]
      · rw [AList.lookup_insert_ne hname, Function.update_of_ne hname]
    rw [override_cons, ← hinsert]
    exact ih _

/-- From inside of an enum to its end: the pending names and those that follow
get the name of the enum. -/
theorem scan_body (body : List BodyLine) (closing : EnumClosing) (const : List Bytes)
    (hash : ConstHash) :
    (body.map BodyLine.line ++ [closing.line]).foldl scanLine ⟨true, const, hash⟩ =
      ⟨false, [], enterAll hash (const.map (·, closing.name.text) ++
        (body.filterMap (BodyLine.constant closing.name.text)).filter
          fun b => !namesCallback b.1)⟩ := by
  induction body generalizing const with
  | nil =>
    rw [List.map_nil, List.nil_append, List.foldl_cons, List.foldl_nil, scanLine, if_pos rfl,
      closesEnum_closing]
    simp only [List.filterMap_nil, List.filter_nil, List.append_nil, enterAll, List.foldl_map]
  | cons l body ih =>
    rw [List.map_cons, List.cons_append, List.foldl_cons, scanLine, if_pos rfl]
    cases l with
    | between l =>
      rw [BodyLine.line, closesEnum_between]
      dsimp only
      rw [listsConstant_between]
      exact ih const
    | enumerator l =>
      rw [BodyLine.line, closesEnum_enumerator]
      dsimp only
      rw [listsConstant_enumerator, List.filterMap_cons, BodyLine.constant]
      split_ifs with hconstant
      · dsimp only
        cases hcallback : namesCallback l.name.text with
        | true =>
          rw [if_pos rfl, ih, List.filter_cons_of_neg (by simp [hcallback])]
        | false =>
          rw [if_neg Bool.false_ne_true, ih, List.filter_cons_of_pos (by simp [hcallback]),
            List.map_append, List.append_assoc]
          rfl
      · exact ih const

/-- What is kept of an item is entered, and the scan is outside again. -/
theorem scan_item (item : HeaderItem) (hash : ConstHash) :
    item.lines.foldl scanLine ⟨false, [], hash⟩ = ⟨false, [], enterAll hash item.kept⟩ := by
  cases item with
  | enum opening body closing =>
    have hopen : scanLine ⟨false, [], hash⟩ opening.line = ⟨true, [], hash⟩ := by
      rw [scanLine, if_neg Bool.false_ne_true, if_pos (opensEnum_opening opening)]
    rw [HeaderItem.lines, List.foldl_cons, hopen, scan_body]
    simp only [List.map_nil, List.nil_append, HeaderItem.kept, HeaderItem.enumerators,
      HeaderItem.defines, List.filter_nil, List.append_nil]
  | define l =>
    rw [HeaderItem.lines, List.foldl_cons, List.foldl_nil, scanLine, if_neg Bool.false_ne_true,
      opensEnum_define, if_neg Bool.false_ne_true, definesConstant_define]
    dsimp only
    cases hguard : endsInH l.name.text with
    | true =>
      simp [HeaderItem.kept, HeaderItem.enumerators, HeaderItem.defines, hguard, enterAll]
    | false =>
      simp [HeaderItem.kept, HeaderItem.enumerators, HeaderItem.defines, hguard, enterAll]
  | other l =>
    rw [HeaderItem.lines, List.foldl_cons, List.foldl_nil, scanLine, if_neg Bool.false_ne_true,
      opensEnum_other, if_neg Bool.false_ne_true, definesConstant_other]
    rfl

/-- The scan of whole headers. -/
theorem scan_items (items : List HeaderItem) (hash : ConstHash) :
    (items.flatMap HeaderItem.lines).foldl scanLine ⟨false, [], hash⟩ =
      ⟨false, [], enterAll hash (items.flatMap HeaderItem.kept)⟩ := by
  induction items generalizing hash with
  | nil => rfl
  | cons item items ih =>
    rw [List.flatMap_cons, List.foldl_append, scan_item, ih, List.flatMap_cons]
    simp only [enterAll, List.foldl_append]

/-- The constants of headers in the layout. -/
def headerConstants (items : List HeaderItem) : ConstHash :=
  extract_libmemcached_constants (items.flatMap HeaderItem.lines)

theorem headerConstants_lookup (items : List HeaderItem) :
    (fun name => (headerConstants items).lookup name) =
      override (fun _ => none) (items.flatMap HeaderItem.kept) := by
  unfold headerConstants extract_libmemcached_constants
  rw [scan_items]
  exact enterAll_lookup ∅ _

/-! ## The tags -/

theorem exportedUnder_foldl (entries : List (Sigma fun _ : Bytes => Bytes))
    (tags : AList fun _ : Bytes => List Bytes) (tag name : Bytes) :
    name ∈ (((entries.foldl (fun tags b => tags.insert b.2 ((tags.lookup b.2).getD [] ++ [b.1]))
      tags).lookup tag).getD []) ↔ name ∈ (tags.lookup tag).getD [] ∨ ⟨name, tag⟩ ∈ entries := by
  induction entries generalizing tags with
  | nil => simp
  | cons b entries ih =>
    rw [List.foldl_cons, ih, List.mem_cons]
    by_cases htag : tag = b.2
    · subst htag
      rw [AList.lookup_insert, Option.getD_some, List.mem_append, List.mem_singleton, or_assoc]
      simp [Sigma.ext_iff]
    · rw [AList.lookup_insert_ne htag]
      simp [Sigma.ext_iff, htag]

/-- A name is exported under its tag. -/
theorem mem_exportedUnder (hash : ConstHash) (tag name : Bytes) :
    name ∈ exportedUnder hash tag ↔ hash.lookup name = some tag := by
  unfold exportedUnder libmemcached_tags AList.foldl
  rw [exportedUnder_foldl, AList.lookup_empty, ← Option.mem_def, AList.mem_lookup_iff]
  simp

/-! ## What the constants are -/

/-- The constants are read as the headers declare them: each name under its
tag, and each value that an `IV` can hold as it is. The C value of a name is
none where it is no integer. -/
structure ReadsDeclared (items : List HeaderItem) (value : Bytes → Option Int) : Prop where
  collected : ∀ name tag, (headerConstants items).lookup name = some tag ↔
    (name, tag) ∈ items.flatMap HeaderItem.declared
  exported : ∀ name tag, name ∈ exportedUnder (headerConstants items) tag ↔
    (name, tag) ∈ items.flatMap HeaderItem.declared
  returned : ∀ name ∈ headerConstants items, ∀ v, value name = some v →
    -9223372036854775808 ≤ v → v ≤ 9223372036854775807 → constantAlias v = v

/-- What the headers must keep to. -/
structure Readable (items : List HeaderItem) (value : Bytes → Option Int) : Prop where
  /-- No other enumerator has the name of a deprecated callback in its own,
  unless a define gives it the same tag. -/
  no_callback : ∀ name tag, (name, tag) ∈ items.flatMap HeaderItem.enumerators →
    name ∉ deprecatedCallbacks → namesCallback name = true →
      endsInH name = false ∧ (name, tag) ∈ items.flatMap HeaderItem.defines
  one_tag : ∀ name tag tag', (name, tag) ∈ items.flatMap HeaderItem.declared →
    (name, tag') ∈ items.flatMap HeaderItem.declared → tag = tag'
  /-- The values are those of an `I32`. -/
  short : ∀ name tag v, (name, tag) ∈ items.flatMap HeaderItem.declared → value name = some v →
    -9223372036854775808 ≤ v → v ≤ 9223372036854775807 → -2147483648 ≤ v ∧ v ≤ 2147483647

theorem constantAlias_iff (v : Int) :
    constantAlias v = v ↔ -2147483648 ≤ v ∧ v ≤ 2147483647 := by
  unfold constantAlias
  rw [Int.bmod_def]
  omega

theorem namesCallback_of_deprecated {name : Bytes} (h : name ∈ deprecatedCallbacks) :
    namesCallback name = true := by
  unfold namesCallback
  apply List.any_eq_true.mpr
  exact ⟨name, h, decide_eq_true List.infix_rfl⟩

theorem mem_declared (items : List HeaderItem) (b : Bytes × Bytes) :
    b ∈ items.flatMap HeaderItem.declared ↔
      (b ∈ items.flatMap HeaderItem.enumerators ∧ b.1 ∉ deprecatedCallbacks) ∨
        (b ∈ items.flatMap HeaderItem.defines ∧ endsInH b.1 = false) := by
  simp only [List.mem_flatMap, HeaderItem.declared, List.mem_append, List.mem_filter,
    decide_eq_true_eq, Bool.not_eq_true']
  constructor
  · rintro ⟨item, hitem, ⟨hb, hname⟩ | ⟨hb, hname⟩⟩
    · exact Or.inl ⟨⟨item, hitem, hb⟩, hname⟩
    · exact Or.inr ⟨⟨item, hitem, hb⟩, hname⟩
  · rintro (⟨⟨item, hitem, hb⟩, hname⟩ | ⟨⟨item, hitem, hb⟩, hname⟩)
    · exact ⟨item, hitem, Or.inl ⟨hb, hname⟩⟩
    · exact ⟨item, hitem, Or.inr ⟨hb, hname⟩⟩

theorem mem_kept (items : List HeaderItem) (b : Bytes × Bytes) :
    b ∈ items.flatMap HeaderItem.kept ↔
      (b ∈ items.flatMap HeaderItem.enumerators ∧ namesCallback b.1 = false) ∨
        (b ∈ items.flatMap HeaderItem.defines ∧ endsInH b.1 = false) := by
  simp only [List.mem_flatMap, HeaderItem.kept, List.mem_append, List.mem_filter,
    Bool.not_eq_true']
  constructor
  · rintro ⟨item, hitem, ⟨hb, hname⟩ | ⟨hb, hname⟩⟩
    · exact Or.inl ⟨⟨item, hitem, hb⟩, hname⟩
    · exact Or.inr ⟨⟨item, hitem, hb⟩, hname⟩
  · rintro (⟨⟨item, hitem, hb⟩, hname⟩ | ⟨⟨item, hitem, hb⟩, hname⟩)
    · exact ⟨item, hitem, Or.inl ⟨hb, hname⟩⟩
    · exact ⟨item, hitem, Or.inr ⟨hb, hname⟩⟩

theorem declared_of_kept (items : List HeaderItem) :
    ∀ b ∈ items.flatMap HeaderItem.kept, b ∈ items.flatMap HeaderItem.declared := by
  intro b hb
  rw [mem_declared]
  rcases (mem_kept items b).mp hb with ⟨hmem, hname⟩ | hdefine
  · refine Or.inl ⟨hmem, ?_⟩
    intro hdeprecated
    rw [namesCallback_of_deprecated hdeprecated] at hname
    cases hname
  · exact Or.inr hdefine

/-- All that is declared is kept. -/
theorem kept_iff_no_callback (items : List HeaderItem) :
    (∀ b ∈ items.flatMap HeaderItem.declared, b ∈ items.flatMap HeaderItem.kept) ↔
      ∀ name tag, (name, tag) ∈ items.flatMap HeaderItem.enumerators →
        name ∉ deprecatedCallbacks → namesCallback name = true →
          endsInH name = false ∧ (name, tag) ∈ items.flatMap HeaderItem.defines := by
  constructor
  · intro h name tag hmem hname hcallback
    have hdeclared := (mem_declared items (name, tag)).mpr (Or.inl ⟨hmem, hname⟩)
    rcases (mem_kept items _).mp (h _ hdeclared) with ⟨-, hno⟩ | ⟨hdefine, hguard⟩
    · rw [hcallback] at hno
      cases hno
    · exact ⟨hguard, hdefine⟩
  · rintro h ⟨name, tag⟩ hb
    apply (mem_kept items _).mpr
    rcases (mem_declared items _).mp hb with ⟨hmem, hname⟩ | hdefine
    · cases hcallback : namesCallback name with
      | false => exact Or.inl ⟨hmem, rfl⟩
      | true =>
        obtain ⟨hguard, hdefine⟩ := h name tag hmem hname hcallback
        exact Or.inr ⟨hdefine, hguard⟩
    · exact Or.inr hdefine

theorem collected_iff (items : List HeaderItem) :
    (∀ name tag, (headerConstants items).lookup name = some tag ↔
      (name, tag) ∈ items.flatMap HeaderItem.declared) ↔
    (∀ b ∈ items.flatMap HeaderItem.declared, b ∈ items.flatMap HeaderItem.kept) ∧
      ∀ name tag tag', (name, tag) ∈ items.flatMap HeaderItem.declared →
        (name, tag') ∈ items.flatMap HeaderItem.declared → tag = tag' := by
  rw [← override_iff_mem (declared_of_kept items), ← headerConstants_lookup]

/-- Headers in the layout are read as they declare their constants exactly
when no enumerator but the deprecated callbacks has one of their names in its
own, no name has two tags, and no value is longer than 32 bits. -/
theorem constants_are_read_as_declared_iff (items : List HeaderItem)
    (value : Bytes → Option Int) : ReadsDeclared items value ↔ Readable items value := by
  constructor
  · rintro ⟨hcollected, -, hreturned⟩
    obtain ⟨hkept, hone⟩ := (collected_iff items).mp hcollected
    refine ⟨(kept_iff_no_callback items).mp hkept, hone, ?_⟩
    intro name tag v hmem hv hlow hhigh
    have hname : name ∈ headerConstants items := by
      apply AList.lookup_isSome.mp
      rw [(hcollected name tag).mpr hmem]
      rfl
    exact (constantAlias_iff v).mp (hreturned name hname v hv hlow hhigh)
  · rintro ⟨hcallback, hone, hshort⟩
    have hcollected := (collected_iff items).mpr ⟨(kept_iff_no_callback items).mpr hcallback, hone⟩
    refine ⟨hcollected, ?_, ?_⟩
    · intro name tag
      rw [mem_exportedUnder, hcollected]
    · intro name hname v hv hlow hhigh
      obtain ⟨tag, htag⟩ := Option.isSome_iff_exists.mp (AList.lookup_isSome.mpr hname)
      apply (constantAlias_iff v).mpr
      exact hshort name tag v ((hcollected name tag).mp htag) hv hlow hhigh

/-- `#define MEMCACHED_EXPIRATION_NOT_ADD 0xffffffffU`. -/
def notAddName : Identifier where
  text := memcachedPrefix ++ ascii ['E', 'X', 'P', 'I', 'R', 'A', 'T', 'I', 'O', 'N', '_', 'N', 'O',
    'T', '_', 'A', 'D', 'D']
  word := by simp [memcachedPrefix, ascii, isword, isdigit]
  not_nil := by decide

def notAddLine : DefineLine where
  indent := ⟨[], by simp⟩
  inner := ⟨[], by simp⟩
  gap := ⟨ascii [' '], by simp [ascii, isspace]⟩
  apart := List.cons_ne_nil _ _
  name := notAddName
  constant := by decide
  value := ⟨ascii [' ', '0', 'x', 'f', 'f', 'f', 'f', 'f', 'f', 'f', 'f', 'U'],
    by simp [ascii, isword, isdigit]⟩
  object_like := by decide

/-- It comes back as -1. -/
theorem not_add_is_cut_to_32_bits :
    ¬ ReadsDeclared [.define notAddLine]
      (fun name => if name = notAddName.text then some 4294967295 else none) := by
  intro h
  have hmem : (notAddName.text, definesTag) ∈ [HeaderItem.define notAddLine].flatMap
      HeaderItem.declared := by decide
  have hname : notAddName.text ∈ headerConstants [.define notAddLine] := by
    apply AList.lookup_isSome.mp
    rw [(h.collected _ _).mpr hmem]
    rfl
  have hvalue := h.returned _ hname 4294967295 (if_pos rfl) (by decide) (by decide)
  exact absurd hvalue (by decide)

end Libmemcached
