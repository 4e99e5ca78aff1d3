import Mathlib.Data.List.DropRight
import Mathlib.Data.List.Forall2
import MarkSweep.Thread

namespace MarkSweep

namespace Text

variable {cs core : List Char} {c d : Char}

/-- The characters are `core` with blanks before and after it. -/
def Pads (cs core : List Char) : Prop :=
  ∃ before after, cs = before ++ core ++ after ∧
    (∀ c ∈ before, isBlank c = true) ∧ ∀ c ∈ after, isBlank c = true

/-- There is no blank at either end. -/
structure Trimmed (cs : List Char) : Prop where
  head : ∀ c ∈ cs.head?, isBlank c = false
  last : ∀ c ∈ cs.getLast?, isBlank c = false

/-- Blanks that lead are cut off. -/
private theorem dropWhile_blanks {before rest : List Char}
    (hbefore : ∀ c ∈ before, isBlank c = true) (hrest : ∀ c ∈ rest.head?, isBlank c = false) :
    (before ++ rest).dropWhile isBlank = rest := by
  rw [List.dropWhile_append_of_pos hbefore]
  cases rest with
  | nil => rfl
  | cons c rest =>
    have hc : isBlank c = false := hrest c rfl
    exact List.dropWhile_cons_of_neg (by simp [hc])

/-- Only blanks are cut off. -/
theorem pads_trimBlanks (cs : List Char) : Pads cs (trimBlanks cs) := by
  refine ⟨cs.takeWhile isBlank, (cs.dropWhile isBlank).rtakeWhile isBlank, ?_,
    fun c => List.mem_takeWhile_imp, fun c => List.mem_rtakeWhile_imp⟩
  have hback : trimBlanks cs ++ (cs.dropWhile isBlank).rtakeWhile isBlank =
      cs.dropWhile isBlank := List.rdropWhile_append_rtakeWhile
  rw [List.append_assoc, hback, List.takeWhile_append_dropWhile]

/-- All of them are. -/
theorem trimmed_trimBlanks (cs : List Char) : Trimmed (trimBlanks cs) := by
  constructor
  · intro c hc
    obtain ⟨rest, hprefix⟩ : trimBlanks cs <+: cs.dropWhile isBlank := List.rdropWhile_prefix _ _
    have hhead := List.head?_dropWhile_not isBlank cs
    rwa [← hprefix, List.head?_append, Option.mem_def.1 hc, Option.some_or] at hhead
  · intro c hc
    obtain ⟨hne, rfl⟩ := List.mem_getLast?_eq_getLast hc
    exact Bool.eq_false_iff.2 (List.rdropWhile_last_not isBlank (cs.dropWhile isBlank) hne)

/-- What is left when the blanks at both ends are cut off is determined. -/
theorem trimBlanks_eq_iff : trimBlanks cs = core ↔ Pads cs core ∧ Trimmed core := by
  constructor
  · rintro rfl
    exact ⟨pads_trimBlanks cs, trimmed_trimBlanks cs⟩
  · rintro ⟨⟨before, after, rfl, hbefore, hafter⟩, htrimmed⟩
    cases core with
    | nil =>
      have hall : ∀ c ∈ before ++ after, isBlank c = true := by
        intro c hc
        exact (List.mem_append.1 hc).elim (hbefore c) (hafter c)
      rw [trimBlanks, List.append_nil, List.dropWhile_eq_nil_iff.2 hall]
      rfl
    | cons c core =>
      have hrest : ∀ d ∈ (c :: core ++ after).head?, isBlank d = false := htrimmed.head
      rw [trimBlanks, List.append_assoc, dropWhile_blanks hbefore hrest, List.reverse_append,
        dropWhile_blanks, List.reverse_reverse]
      · exact fun d hd => hafter d (List.mem_reverse.1 hd)
      · rw [List.head?_reverse]
        exact htrimmed.last

/-- The second character is the first one in lower case; only ASCII letters have two cases. -/
def Lowers (c d : Char) : Prop :=
  if 'A' ≤ c ∧ c ≤ 'Z' then d.toNat = c.toNat + 32 else d = c

/-- The characters differ at most in the case of an ASCII letter. -/
def SameLetter (c d : Char) : Prop := c = d ∨ Lowers c d ∨ Lowers d c

theorem toNat_toLower (hc : 'A' ≤ c ∧ c ≤ 'Z') : c.toLower.toNat = c.toNat + 32 := by
  have hrange : 65 ≤ c.val.toNat ∧ c.val.toNat ≤ 90 := hc
  have hlower : c.toLower.val = c.val + 32 :=
    congrArg Char.val (dif_pos (show c.val ≥ 'A'.val ∧ c.val ≤ 'Z'.val from hc))
  change c.toLower.val.toNat = c.val.toNat + 32
  rw [hlower, UInt32.toNat_add]
  exact Nat.mod_eq_of_lt (show c.val.toNat + 32 < 2 ^ 32 by omega)

theorem toLower_eq_self (hc : ¬('A' ≤ c ∧ c ≤ 'Z')) : c.toLower = c := dif_neg hc

/-- What it is to be the small letter of a character is computed by `Char.toLower`. -/
theorem lowers_iff : Lowers c d ↔ c.toLower = d := by
  unfold Lowers
  split
  case isTrue hc => rw [← toNat_toLower hc, eq_comm, Char.toNat_inj]
  case isFalse hc => rw [toLower_eq_self hc, eq_comm]

theorem not_upper_toLower (c : Char) : ¬('A' ≤ c.toLower ∧ c.toLower ≤ 'Z') := by
  by_cases hc : 'A' ≤ c ∧ c ≤ 'Z'
  · have hlower := toNat_toLower hc
    have hrange : 65 ≤ c.toNat ∧ c.toNat ≤ 90 := hc
    intro hupper
    have hupper : 65 ≤ c.toLower.toNat ∧ c.toLower.toNat ≤ 90 := hupper
    omega
  · rwa [toLower_eq_self hc]

theorem toLower_toLower (c : Char) : c.toLower.toLower = c.toLower :=
  toLower_eq_self (not_upper_toLower c)

/-- Two characters are the same letter if their small letters are the same. -/
theorem sameLetter_iff : SameLetter c d ↔ c.toLower = d.toLower := by
  unfold SameLetter
  rw [lowers_iff, lowers_iff]
  constructor
  · rintro (rfl | rfl | rfl)
    · rfl
    · rw [toLower_toLower]
    · rw [toLower_toLower]
  · intro hsame
    by_cases hc : 'A' ≤ c ∧ c ≤ 'Z'
    · by_cases hd : 'A' ≤ d ∧ d ≤ 'Z'
      · have hsum := toNat_toLower hc
        rw [hsame, toNat_toLower hd] at hsum
        exact .inl (Char.toNat_inj.1 (by omega))
      · exact .inr (.inl (hsame.trans (toLower_eq_self hd)))
    · exact .inr (.inr (hsame.symm.trans (toLower_eq_self hc)))

/-- Whether a character is a blank does not depend on its case. -/
theorem isBlank_toLower (c : Char) : isBlank c.toLower = isBlank c := by
  by_cases hc : 'A' ≤ c ∧ c ≤ 'Z'
  · have hlower := toNat_toLower hc
    have hrange : 65 ≤ c.toNat ∧ c.toNat ≤ 90 := hc
    -- No letter is a blank.
    have hletter : ∀ d : Char, 65 ≤ d.toNat → d.toNat ≤ 122 → isBlank d = false := by
      intro d hlow hhigh
      simp [isBlank, blankRanges, Ranges.contains]
      omega
    rw [hletter c (by omega) (by omega), hletter _ (by omega) (by omega)]
  · rw [toLower_eq_self hc]

theorem forall₂_lowers_iff {cs ds : List Char} :
    List.Forall₂ Lowers cs ds ↔ cs.map Char.toLower = ds := by
  have hlowers : Lowers = fun c d => c.toLower = d :=
    funext fun c => funext fun d => propext lowers_iff
  rw [hlowers, ← List.forall₂_eq_eq_eq, List.forall₂_map_left_iff]

theorem forall₂_sameLetter_iff {cs ds : List Char} :
    List.Forall₂ SameLetter cs ds ↔ cs.map Char.toLower = ds.map Char.toLower := by
  have hsame : SameLetter = fun c d => c.toLower = d.toLower :=
    funext fun c => funext fun d => propext sameLetter_iff
  rw [hsame, ← List.forall₂_eq_eq_eq, List.forall₂_map_left_iff, List.forall₂_map_right_iff]

/-- The case of its letters does not matter to whether there are blanks around a text. -/
theorem trimmed_map_toLower_iff : Trimmed (cs.map Char.toLower) ↔ Trimmed cs := by
  have hends : ∀ end? : Option Char, (∀ c ∈ end?.map Char.toLower, isBlank c = false) ↔
      ∀ c ∈ end?, isBlank c = false := by
    rintro (_ | c)
    · exact Iff.rfl
    · simp [isBlank_toLower]
  constructor
  · rintro ⟨hhead, hlast⟩
    rw [List.head?_map, hends] at hhead
    rw [List.getLast?_map, hends] at hlast
    exact ⟨hhead, hlast⟩
  · rintro ⟨hhead, hlast⟩
    rw [← hends, ← List.head?_map] at hhead
    rw [← hends, ← List.getLast?_map] at hlast
    exact ⟨hhead, hlast⟩

end Text

namespace Policy

variable {text key : String} {core : List Char}

/-- The names by which policies are known. -/
def knownNames : List String := ["mark-and-sweep", "mark_and_sweep", "ms"]

/-- The text is a known name, in any case of its ASCII letters and with any blanks around it. -/
def IsName (text : String) : Prop :=
  ∃ name, Text.Pads text.toList name ∧
    ∃ known ∈ knownNames, List.Forall₂ Text.SameLetter name known.toList

/-- The key is what is left of the text without the blanks at its ends, in lower case as far as
ASCII goes. -/
def IsNormalForm (text key : String) : Prop :=
  ∃ core, Text.Pads text.toList core ∧ Text.Trimmed core ∧
    List.Forall₂ Text.Lowers core key.toList

theorem toList_normalize (text : String) :
    (normalize text).toList = (Text.trimBlanks text.toList).map Char.toLower :=
  String.toList_ofList

/-- Every text has one normal form, which is computed. -/
theorem isNormalForm_iff : IsNormalForm text key ↔ key = normalize text := by
  rw [← String.toList_inj, toList_normalize, eq_comm]
  constructor
  · rintro ⟨core, hpads, htrimmed, hcore⟩
    rwa [Text.trimBlanks_eq_iff.2 ⟨hpads, htrimmed⟩, ← Text.forall₂_lowers_iff]
  · intro hkey
    exact ⟨_, Text.pads_trimBlanks _, Text.trimmed_trimBlanks _, Text.forall₂_lowers_iff.2 hkey⟩

/-- A normal form has no blanks around it. -/
theorem trimmed_normalize (text : String) : Text.Trimmed (normalize text).toList := by
  rw [toList_normalize, Text.trimmed_map_toLower_iff]
  exact Text.trimmed_trimBlanks _

/-- A normal form has no capital ASCII letters. -/
theorem map_toLower_normalize (text : String) :
    (normalize text).toList.map Char.toLower = (normalize text).toList := by
  rw [toList_normalize, List.map_map]
  simp only [Function.comp_def, Text.toLower_toLower]

/-- To normalize a normal form again makes no difference. -/
theorem normalize_normalize (text : String) : normalize (normalize text) = normalize text := by
  have hpads : Text.Pads (normalize text).toList (normalize text).toList :=
    ⟨[], [], by simp, nofun, nofun⟩
  rw [← String.toList_inj, toList_normalize (normalize text),
    Text.trimBlanks_eq_iff.2 ⟨hpads, trimmed_normalize text⟩, map_toLower_normalize]

/-- The known names are written as they are compared. -/
theorem normalize_known : ∀ known ∈ knownNames, normalize known = known := by
  decide

/-- A text is a name if its normal form is a known one. -/
theorem isName_iff : IsName text ↔ normalize text ∈ knownNames := by
  constructor
  · rintro ⟨name, hpads, known, hknown, hsame⟩
    have hnormal := normalize_known known hknown
    have hlower : name.map Char.toLower = known.toList := by
      rw [Text.forall₂_sameLetter_iff.1 hsame, ← hnormal, map_toLower_normalize]
    have htrimmed : Text.Trimmed name := by
      rw [← Text.trimmed_map_toLower_iff, hlower, ← hnormal]
      exact trimmed_normalize known
    have hkey : normalize text = known := by
      rw [← String.toList_inj, toList_normalize, Text.trimBlanks_eq_iff.2 ⟨hpads, htrimmed⟩, hlower]
    rwa [hkey]
  · intro hknown
    refine ⟨_, Text.pads_trimBlanks _, _, hknown, ?_⟩
    rw [Text.forall₂_sameLetter_iff, map_toLower_normalize, toList_normalize]

/-- A text is read by its normal form. -/
theorem parse_eq (text : String) :
    parse text =
      if normalize text ∈ knownNames then .ok markAndSweep else .error (normalize text) := by
  simp [parse, knownNames]

/-- How a text is read. -/
structure Deciphers (text : String) : Prop where
  /-- Exactly the names are read. -/
  accepted : (∃ policy, parse text = .ok policy) ↔ IsName text
  /-- Every other text is refused with its normal form. -/
  refused : ∀ key, parse text = .error key ↔ ¬IsName text ∧ IsNormalForm text key
  normal : ∀ key, IsNormalForm text key ↔ key = normalize text
  idempotent : normalize (normalize text) = normalize text
  /-- A text and its normal form are read alike. -/
  again : parse (normalize text) = parse text
  /-- Whoever has to fall back on the standard policy warns of the text as it was given, and nobody
  else does. -/
  warned : ∀ {S : Type} (settle : Thread × S → Thread × S) (thread : Thread) (s : S),
    ∃ policy records,
      Routine.run settle (Call.policyNamed text) (thread, s) =
        some (.ok policy, { thread with trace := records ++ thread.trace }, s) ∧
      (records = [.event (.unknownPolicy text)] ∧ policy = standard ↔
        ∃ key, parse text = .error key) ∧
      (records = [] ↔ parse text = .ok policy)

/-- Exactly the names are read. -/
theorem accepted_iff : (∃ policy, parse text = .ok policy) ↔ IsName text := by
  rw [parse_eq, isName_iff]
  split
  case isTrue hknown => exact iff_of_true ⟨_, rfl⟩ hknown
  case isFalse hunknown => exact iff_of_false nofun hunknown

/-- What is not a name is refused with its normal form. -/
theorem refused_iff : parse text = .error key ↔ ¬IsName text ∧ IsNormalForm text key := by
  rw [parse_eq, isName_iff, isNormalForm_iff]
  split
  case isTrue hknown => exact iff_of_false nofun fun hrefused => hrefused.1 hknown
  case isFalse hunknown => rw [Except.error.injEq, eq_comm, and_iff_right hunknown]

/-- What a thread does that is given a text for a policy. -/
theorem run_policyNamed {S : Type} (settle : Thread × S → Thread × S) (thread : Thread) (s : S)
    (text : String) :
    Routine.run settle (Call.policyNamed text) (thread, s) =
      match parse text with
      | .ok policy => some (.ok policy, thread, s)
      | .error _ => some (.ok standard, thread.report (.event (.unknownPolicy text)), s) := by
  unfold Call.policyNamed parseOrStandard
  cases parse text <;> rfl

/-- The texts that are read are the names of policies, whatever their case and the blanks around
them, and each policy has a name. -/
theorem parse_deciphers : (∀ text, Deciphers text) ∧
    ∀ policy : Policy, parse policy.name = .ok policy ∧ parse (toString policy) = .ok policy := by
  constructor
  · intro text
    refine ⟨accepted_iff, fun _ => refused_iff, fun _ => isNormalForm_iff, normalize_normalize text,
      ?again, ?warned⟩
    case again => rw [parse_eq, parse_eq, normalize_normalize]
    case warned =>
      intro S settle thread s
      rw [run_policyNamed]
      cases parse text with
      | ok policy =>
        exact ⟨policy, [], rfl, iff_of_false nofun nofun, iff_of_true rfl rfl⟩
      | error key =>
        exact ⟨standard, _, rfl, iff_of_true ⟨rfl, rfl⟩ ⟨key, rfl⟩, iff_of_false nofun nofun⟩
  · intro policy
    cases policy
    decide

example : parse "\u00a0\tMS\u3000" = .ok .markAndSweep := by decide

-- The Kelvin sign is no letter of ASCII.
example : parse " Mar\u212a-and-sweep\n" = .error "mar\u212a-and-sweep" := by decide

end Policy

end MarkSweep
