-- SUMMARY: The rules by which a log is asked for, and that the subscriber which goes by a text keeps to them.
import Mathlib.Data.List.Induction
import Mathlib.Data.List.TakeWhile
import StackMachine.Log.Filter
import StackMachine.Proofs.Quoting

/-!
# Rules about logs

A text asks for a log by rules: how much to show of all targets, or of those that start in a given way.
The most specific rule about a target decides. What a subscriber makes of such texts is said here without
a parser: which texts spell which rules, and which rule decides. The main statement is that the subscriber
of `StackMachine.Log.Filter` keeps to it.
-/

namespace StackMachine

namespace Log

/-! ## Texts of filters -/

namespace Directive

/-- The words for verbosities, in small letters. -/
def verbosityNames : List (String × Nat) :=
  [("off", 0), ("error", 1), ("warn", 2), ("info", 3), ("debug", 4), ("trace", 5)]

/-- A word names a verbosity in letters, small or capital, or by its number. -/
inductive Names (word : String) : Nat → Prop where
  | letters {name : String} {v : Nat} (hname : (name, v) ∈ verbosityNames)
      (h : word.toLower = name) : Names word v
  | number {v : Nat} (hv : v ≤ everything) (h : word = v.repr) : Names word v

/-- A letter, a digit, or a sign that may stand in the path of a module. -/
def IsTargetChar (c : Char) : Prop :=
  c.isAlphanum = true ∨ c = '-' ∨ c = ':' ∨ c = '_'

instance : DecidablePred IsTargetChar :=
  fun c => inferInstanceAs (Decidable (c.isAlphanum = true ∨ c = '-' ∨ c = ':' ∨ c = '_'))

/-- A word that can be a target. -/
def IsTarget (word : String) : Prop :=
  word ≠ "" ∧ ∀ c ∈ word.toList, IsTargetChar c

instance : DecidablePred IsTarget :=
  fun word => @instDecidableAnd (word ≠ "") _ _ (List.decidableBAll IsTargetChar word.toList)

/-- A text spells a rule: a verbosity for all targets, or one for a given target. -/
inductive Spells : String → Directive → Prop where
  | all {word : String} {v : Nat} (h : Names word v) : Spells word { target := none, verbosity := v }
  | pair {target word : String} {v : Nat} (htarget : IsTarget target) (h : Names word v) :
      Spells (target ++ "=" ++ word) { target := some target, verbosity := v }

theorem isAlpha_of_toLower {c : Char} (h : c.toLower.isAlpha = true) : c.isAlpha = true := by
  unfold Char.toLower at h
  split at h
  · rename_i hupper
    exact Text.isAlpha_iff_toNat.2 (.inl hupper)
  · exact h

theorem not_isDigit_of_isAlpha {c : Char} (h : c.isAlpha = true) : c.isDigit = false := by
  refine Bool.eq_false_iff.2 fun hdigit => ?_
  have hdigits := (Char.isDigit_iff_toNat.1 hdigit).2
  have hletters := Text.isAlpha_iff_toNat.1 h
  have hnine : '9'.toNat = 57 := rfl
  omega

theorem toList_of_toLower_eq {word name : String} (h : word.toLower = name) :
    word.toList.map Char.toLower = name.toList := by
  rw [← h]
  exact String.toList_map.symm

theorem isStart_of_isTargetChar {c : Char} (h : IsTargetChar c) : isStart c = true := by
  rcases h with h | rfl | rfl | rfl
  · simp [isStart, h]
  · rfl
  · rfl
  · rfl

theorem not_of_isStart {c : Char} (h : isStart c = true) :
    c ≠ ',' ∧ c ≠ '=' ∧ c.isWhitespace = false := by
  have hne {d : Char} (hd : isStart d = false) : c ≠ d := by
    rintro rfl
    rw [h] at hd
    cases hd
  refine ⟨hne (by decide), hne (by decide), ?_⟩
  simp only [Char.isWhitespace, Bool.or_eq_false_iff, decide_eq_false_iff_not]
  exact ⟨⟨⟨hne (by decide), hne (by decide)⟩, hne (by decide)⟩, hne (by decide)⟩

namespace Names

variable {word : String} {v : Nat}

theorem all_isAlpha_of_mem {name : String} (h : (name, v) ∈ verbosityNames) :
    name.toList ≠ [] ∧ name.toList.all Char.isAlpha = true := by
  have hall : ∀ p ∈ verbosityNames, p.1.toList ≠ [] ∧ p.1.toList.all Char.isAlpha = true := by decide
  exact hall _ h

theorem of_mem {name : String} (h : (name, v) ∈ verbosityNames) : Names name v := by
  have hall : ∀ p ∈ verbosityNames, p.1.toList.map Char.toLower = p.1.toList := by decide
  refine .letters h (String.toList_inj.1 ?_)
  exact String.toList_map.trans (hall _ h)

theorem ne_nil (h : Names word v) : word.toList ≠ [] := by
  cases h with
  | letters hname h =>
    intro hnil
    have hlist := toList_of_toLower_eq h
    rw [hnil] at hlist
    exact (all_isAlpha_of_mem hname).1 hlist.symm
  | number _ h =>
    rw [h, Nat.toList_repr]
    exact Nat.toDigits_ne_nil

theorem isAlpha_of_letters {name : String} (hname : (name, v) ∈ verbosityNames)
    (h : word.toLower = name) {c : Char} (hc : c ∈ word.toList) : c.isAlpha = true := by
  have hall := (all_isAlpha_of_mem hname).2
  rw [← toList_of_toLower_eq h, List.all_map, List.all_eq_true] at hall
  exact isAlpha_of_toLower (hall c hc)

theorem isStart_of_mem (h : Names word v) {c : Char} (hc : c ∈ word.toList) : isStart c = true := by
  cases h with
  | letters hname h =>
    have halpha := isAlpha_of_letters hname h hc
    simp [isStart, Char.isAlphanum, halpha]
  | number _ h =>
    subst h
    simp [isStart, Char.isAlphanum, Text.isDigit_of_mem_repr hc]

/-- A word in letters is not a number. -/
theorem number?_of_letters {name : String} (hname : (name, v) ∈ verbosityNames)
    (h : word.toLower = name) : Text.number? word = none := by
  obtain ⟨c, rest, hword⟩ := List.exists_cons_of_ne_nil (ne_nil (.letters hname h))
  have halpha : c.isAlpha = true := isAlpha_of_letters hname h (by simp [hword])
  unfold Text.number?
  rw [hword]
  split
  · rename_i digits heq
    cases heq
    exact absurd halpha (by decide)
  · simp [not_isDigit_of_isAlpha halpha]

theorem verbosity?_eq (h : Names word v) : verbosity? word = some v := by
  cases h with
  | letters hname h =>
    unfold verbosity?
    rw [number?_of_letters hname h, h]
    simp only [verbosityNames, List.mem_cons, Prod.mk.injEq, List.not_mem_nil, or_false] at hname
    rcases hname with ⟨rfl, rfl⟩ | ⟨rfl, rfl⟩ | ⟨rfl, rfl⟩ | ⟨rfl, rfl⟩ | ⟨rfl, rfl⟩ | ⟨rfl, rfl⟩ <;> rfl
  | number hv h =>
    subst h
    have hbound : v < Text.numberBound := Nat.lt_of_le_of_lt hv (by decide)
    simp only [verbosity?, Text.number?_repr hbound, hv, if_true]

end Names

section Shapes

variable {text : String} {c : Char} {rest : List Char} (htext : text.toList = c :: rest)
  (hc : isStart c = true)

include htext hc

theorem dropWhile_isWhitespace : text.toList.dropWhile Char.isWhitespace = c :: rest := by
  rw [htext, List.dropWhile_cons, (not_of_isStart hc).2.2]
  rfl

theorem parse_word (h : ∀ c ∈ text.toList, c ≠ '=') : parse text = .ok (ofWord text) := by
  have hequals : text.toList.dropWhile (· ≠ '=') = [] :=
    List.dropWhile_eq_nil_iff.2 fun c hc => decide_eq_true (h c hc)
  simp only [parse, dropWhile_isWhitespace htext hc, hc, hequals, Bool.not_true, Bool.false_eq_true,
    if_false]

theorem parse_pair {target level : List Char} (h : text.toList = target ++ '=' :: level)
    (hplain : ∀ c ∈ target, c ≠ '=') :
    parse text = ofPair (String.ofList target) (String.ofList level) := by
  have hall : ∀ c ∈ target, decide (c ≠ '=') = true := fun c hc => decide_eq_true (hplain c hc)
  have htake : text.toList.takeWhile (· ≠ '=') = target := by
    rw [h, List.takeWhile_append_of_pos hall]
    simp
  have hdrop : text.toList.dropWhile (· ≠ '=') = '=' :: level := by
    rw [h, List.dropWhile_append_of_pos hall]
    simp
  have hhead : ¬ text.toList.head? ≠ some c := by simp [htext]
  simp only [parse, dropWhile_isWhitespace htext hc, hc, htake, hdrop, hhead, Bool.not_true,
    Bool.false_eq_true, if_false]

end Shapes

namespace Spells

variable {text : String} {d : Directive}

theorem parse_eq (h : Spells text d) : parse text = .ok d := by
  cases h with
  | @all _ v h =>
    obtain ⟨c, rest, htext⟩ := List.exists_cons_of_ne_nil h.ne_nil
    have hword := parse_word htext (h.isStart_of_mem (by simp [htext]))
      fun c hc => (not_of_isStart (h.isStart_of_mem hc)).2.1
    rw [hword, ofWord, h.verbosity?_eq]
  | @pair target word v htarget h =>
    obtain ⟨c, rest, hc⟩ := List.exists_cons_of_ne_nil (String.toList_eq_nil_iff.not.2 htarget.1)
    have htext : (target ++ "=" ++ word).toList = target.toList ++ '=' :: word.toList := by simp
    have hhead : (target ++ "=" ++ word).toList = c :: (rest ++ '=' :: word.toList) := by
      rw [htext, hc, List.cons_append]
    have hstart (c : Char) (hc : c ∈ target.toList) : isStart c = true :=
      isStart_of_isTargetChar (htarget.2 c hc)
    have hpair := parse_pair hhead (hstart c (by simp [hc])) htext
      fun c hc => (not_of_isStart (hstart c hc)).2.1
    have hword : word ≠ "" := fun hempty => h.ne_nil (String.toList_eq_nil_iff.2 hempty)
    rw [hpair]
    simp [ofPair, hword, h.verbosity?_eq]

theorem ne_empty (h : Spells text d) : text ≠ "" := by
  cases h with
  | all h => exact fun hempty => h.ne_nil (String.toList_eq_nil_iff.2 hempty)
  | pair htarget h => simp

theorem comma_not_mem (h : Spells text d) : ',' ∉ text.toList := by
  intro hmem
  cases h with
  | all h => exact (not_of_isStart (h.isStart_of_mem hmem)).1 rfl
  | @pair target word v htarget h =>
    have hcases : ',' ∈ target.toList ∨ ',' ∈ word.toList := by simpa using hmem
    rcases hcases with hmem | hmem
    · exact (not_of_isStart (isStart_of_isTargetChar (htarget.2 _ hmem))).1 rfl
    · exact (not_of_isStart (h.isStart_of_mem hmem)).1 rfl

end Spells

end Directive

namespace Filter

/-- A text spells a filter: the rules with commas between them. The empty text asks for errors only. -/
inductive Spells : String → Filter → Prop where
  | empty : Spells "" errorsOnly
  | rules {parts : List (String × Directive)} (hne : parts ≠ [])
      (h : ∀ part ∈ parts, Directive.Spells part.1 part.2) :
      Spells (",".intercalate (parts.map Prod.fst)) (parts.map Prod.snd)

theorem join_eq_empty {lines : List String} (h : ∀ line ∈ lines, line = "") :
    String.join lines = "" := by
  apply String.toList_inj.1
  simpa [String.toList_join] using h

theorem parts_intercalate {texts : List String} (hne : texts ≠ [])
    (h : ∀ text ∈ texts, text ≠ "" ∧ ',' ∉ text.toList) : parts (",".intercalate texts) = texts := by
  have hsplit : (",".intercalate texts).toList.splitOn ',' = texts.map String.toList := by
    rw [String.toList_intercalate]
    refine List.splitOn_intercalate ',' ?_ (by simpa using hne)
    intro chars hchars
    obtain ⟨text, htext, rfl⟩ := List.mem_map.1 hchars
    exact (h text htext).2
  have hback : (texts.map String.toList).map String.ofList = texts := by simp
  unfold parts
  rw [hsplit, hback, List.filter_eq_self]
  exact fun text htext => decide_eq_true (h text htext).1

namespace Spells

variable {text : String} {filter : Filter}

theorem parts_rules {parts : List (String × Directive)} (hne : parts ≠ [])
    (h : ∀ part ∈ parts, Directive.Spells part.1 part.2) :
    Filter.parts (",".intercalate (parts.map Prod.fst)) = parts.map Prod.fst := by
  refine parts_intercalate (by simpa using hne) fun text htext => ?_
  obtain ⟨part, hpart, rfl⟩ := List.mem_map.1 htext
  exact ⟨(h part hpart).ne_empty, (h part hpart).comma_not_mem⟩

theorem rule {d : Directive} (h : Directive.Spells text d) : Spells text [d] :=
  @rules [(text, d)] (List.cons_ne_nil _ _) (List.forall_mem_singleton.2 h)

theorem parse_eq (h : Spells text filter) : parse text = filter := by
  cases h with
  | empty => rfl
  | @rules parts hne h =>
    have hrules : (parts.map Prod.fst).filterMap (fun part => (Directive.parse part).toOption) =
        parts.map Prod.snd := by
      rw [List.filterMap_map, ← List.filterMap_eq_map]
      refine List.filterMap_congr fun part hpart => ?_
      simp [(h part hpart).parse_eq, Except.toOption]
    unfold parse
    rw [parts_rules hne h, hrules]
    cases parts with
    | nil => exact absurd rfl hne
    | cons part parts => rfl

/-- No part of such a text is passed over. -/
theorem notices_eq (h : Spells text filter) : notices text = "" := by
  cases h with
  | empty => rfl
  | @rules parts hne h =>
    unfold notices
    rw [parts_rules hne h, List.map_map]
    refine join_eq_empty fun line hline => ?_
    obtain ⟨part, hpart, rfl⟩ := List.mem_map.1 hline
    simp only [Function.comp, notice, (h part hpart).parse_eq]

end Spells

/-! ## Rules that decide -/

variable {filter : Filter} {target : String} {d : Directive}

/-- A rule decides about a target: it is about it, no rule before it is more specific, and every rule
after it is less specific, as far as these are about the target. -/
def Decides (filter : Filter) (target : String) (d : Directive) : Prop :=
  ∃ before after, filter = before ++ d :: after ∧ d.covers target = true ∧
    (∀ b ∈ before, b.covers target = true → b.specificity ≤ d.specificity) ∧
    ∀ a ∈ after, a.covers target = true → a.specificity < d.specificity

/-- A filter enables the records of a level and a target if the rule that decides about the target
allows the level. -/
def Enables (filter : Filter) (level : Level) (target : String) : Prop :=
  ∃ d, filter.Decides target d ∧ level.verbosity ≤ d.verbosity

/-- The better of the rules so far and one more. -/
def better (target : String) (best : Option Directive) (d : Directive) : Option Directive :=
  if d.covers target && best.all (·.specificity ≤ d.specificity) then some d else best

theorem governing?_append_singleton (filter : Filter) (d : Directive) (target : String) :
    governing? (filter ++ [d]) target = better target (filter.governing? target) d := by
  unfold governing?
  rw [List.foldl_append]
  rfl

theorem better_eq_self {best : Option Directive} (hd : d.covers target = true)
    (h : ∀ g, best = some g → g.specificity ≤ d.specificity) : better target best d = some d := by
  cases best with
  | none => simp only [better, hd, Option.all_none, Bool.and_self, if_true]
  | some g => simp only [better, hd, h g rfl, Option.all_some, decide_true, Bool.and_self, if_true]

theorem better_eq_some {g : Directive} (h : d.covers target = true → d.specificity < g.specificity) :
    better target (some g) d = some g := by
  unfold better
  rw [if_neg]
  simpa using h

/-- The rule found decides. If there is none, no rule is about the target. -/
theorem governing?_spec (filter : Filter) (target : String) :
    match filter.governing? target with
    | some d => filter.Decides target d
    | none => ∀ d ∈ filter, d.covers target = false := by
  -- The search goes from the first rule to the last, so a further rule is added at the end.
  induction filter using List.reverseRecOn with
  | nil => exact nofun
  | append_singleton filter d ih =>
    rw [governing?_append_singleton]
    generalize governing? filter target = best at ih ⊢
    cases best with
    | none =>
      cases hd : d.covers target with
      | true =>
        rw [better_eq_self hd (by rintro g ⟨⟩)]
        refine ⟨filter, [], rfl, hd, fun b hb hcovers => ?_, nofun⟩
        rw [ih b hb] at hcovers
        cases hcovers
      | false =>
        simp only [better, hd, Bool.false_and, Bool.false_eq_true, if_false]
        exact List.forall_mem_append.2 ⟨ih, List.forall_mem_singleton.2 hd⟩
    | some g =>
      obtain ⟨before, after, rfl, hg, hbefore, hafter⟩ := ih
      by_cases hbetter : d.covers target = true ∧ g.specificity ≤ d.specificity
      · rw [better_eq_self hbetter.1 (by rintro _ ⟨⟩; exact hbetter.2)]
        refine ⟨before ++ g :: after, [], rfl, hbetter.1, fun b hb hcovers => ?_, nofun⟩
        refine Nat.le_trans ?_ hbetter.2
        rcases List.mem_append.1 hb with hmem | hmem
        · exact hbefore b hmem hcovers
        · rcases List.mem_cons.1 hmem with rfl | hmem
          · exact Nat.le_refl _
          · exact Nat.le_of_lt (hafter b hmem hcovers)
      · have hless : d.covers target = true → d.specificity < g.specificity := fun hcovers =>
          Nat.lt_of_not_le fun hle => hbetter ⟨hcovers, hle⟩
        rw [better_eq_some hless]
        refine ⟨before, after ++ [d], by simp, hg, hbefore, ?_⟩
        exact List.forall_mem_append.2 ⟨hafter, List.forall_mem_singleton.2 hless⟩

/-- Only one rule decides. -/
theorem Decides.governing?_eq (h : filter.Decides target d) : filter.governing? target = some d := by
  obtain ⟨before, after, rfl, hd, hbefore, hafter⟩ := h
  induction after using List.reverseRecOn with
  | nil =>
    -- What is found among the rules before is about the target, and so no more specific.
    have hspec := governing?_spec before target
    rw [governing?_append_singleton]
    refine better_eq_self hd fun g hg => ?_
    rw [hg] at hspec
    obtain ⟨first, last, rfl, hcovers, -⟩ := hspec
    exact hbefore g (by simp) hcovers
  | append_singleton after a ih =>
    obtain ⟨hafter, ha⟩ := List.forall_mem_append.1 hafter
    rw [← List.cons_append, ← List.append_assoc, governing?_append_singleton, ih hafter]
    exact better_eq_some (ha a List.mem_cons_self)

theorem shows_iff (filter : Filter) (level : Level) (target : String) :
    filter.shows level target = true ↔ filter.Enables level target := by
  have hlevel : 0 < level.verbosity := by cases level <;> decide
  have hspec := governing?_spec filter target
  unfold shows verbosity
  rw [decide_eq_true_eq]
  constructor
  · intro hle
    generalize filter.governing? target = best at hspec hle
    cases best with
    | none => exact absurd hlevel (Nat.not_lt_of_le hle)
    | some d => exact ⟨d, hspec, hle⟩
  · rintro ⟨d, hd, hle⟩
    rw [hd.governing?_eq]
    exact hle

/-- A filter that is more verbose about a target enables what another does, and more. -/
theorem Enables.mono {other : Filter} {level : Level}
    (hle : filter.verbosity target ≤ other.verbosity target) (h : filter.Enables level target) :
    other.Enables level target := by
  rw [← shows_iff] at h ⊢
  exact decide_eq_true (Nat.le_trans (of_decide_eq_true h) hle)

/-- The filter that enables every record. -/
def everything : Filter := [{ target := none, verbosity := Directive.everything }]

theorem spells_everything : Spells "trace" everything :=
  .rule (.all (.of_mem (by simp [Directive.verbosityNames, Directive.everything])))

theorem enables_everything (level : Level) (target : String) : everything.Enables level target := by
  refine ⟨_, ⟨[], [], rfl, rfl, nofun, nofun⟩, ?_⟩
  cases level <;> decide

end Filter

/-! ## Subscribers that keep to rules -/

namespace Subscriber

/-- What is told of the subscribers of filters. For a text that spells rules, a subscriber shows just the
records that the rules enable, and it has nothing to say about the text. -/
structure KeepsRules (s : Subscriber) : Prop where
  shows_iff : ∀ {text filter}, Filter.Spells text filter → ∀ level target,
    (s.log text).shows level target = true ↔ filter.Enables level target
  notices_eq : ∀ {text filter}, Filter.Spells text filter → s.notices text = ""

end Subscriber

theorem Filter.keepsRules_subscriber (stamp : Nat → String) : (subscriber stamp).KeepsRules where
  shows_iff {text filter} hspells level target := by
    have hlog : ((subscriber stamp).log text).shows = (parse text).shows := rfl
    rw [hlog, hspells.parse_eq, shows_iff]
  notices_eq hspells := hspells.notices_eq

end Log

end StackMachine
