import Mathlib
import TemplateLint.Proofs.Composition
import TemplateLint.Proofs.Configuring

/-! # Checks come to an end

A check walks a template and, for every text that it looks at, takes the entries of the allowlist
out in two loops. An empty entry would keep the inner loop from ending. No configuration has one:
whichever way a rule comes about, its allowlist has been sorted, and sorting leaves empty entries
out. So a check ends on every template, and wherever it is, it goes on to the findings of the
template.
-/

namespace TemplateLint

open Text
open Relation (ReflTransGen)

/-! ## Runs that can go on in one way only -/

section Deterministic

variable {State : Type} {step : State → State → Prop} {start last after : State}

/-- A run that comes to an end cannot be prolonged for ever, if there is only one way to go on. -/
theorem acc_of_reaches (deterministic : Relator.RightUnique step)
    (ended : ∀ after, ¬ step last after) (whole : ReflTransGen step start last) :
    Acc (fun after before => step before after) start := by
  induction whole using ReflTransGen.head_induction_on with
  | refl => exact ⟨_, fun after goesOn => absurd goesOn (ended after)⟩
  | head first _ ih => exact ⟨_, fun after alike => deterministic first alike ▸ ih⟩

/-- Wherever a run has got to, it comes to the same end. -/
theorem reaches_last (deterministic : Relator.RightUnique step) (ended : ∀ after, ¬ step last after)
    (whole : ReflTransGen step start last) (begun : ReflTransGen step start after) :
    ReflTransGen step after last := by
  obtain onward | beyond := ReflTransGen.total_of_right_unique deterministic begun whole
  · exact onward
  · obtain rfl | ⟨_, goesOn, -⟩ := beyond.cases_head
    · exact .refl
    · exact absurd goesOn (ended _)

end Deterministic

/-! ## The steps of a check -/

/-- The open elements after an event. -/
def Enclosing.after (enclosing : Enclosing) : Event → Enclosing
  | .enter tag => enclosing.push tag
  | .exit _ => enclosing.pop
  | _ => enclosing

namespace Rule

/-- The texts to look at when an event is met inside open elements. -/
def textsAt (rule : Rule) (enclosing : Enclosing) (event : Event) : List Candidate :=
  if enclosing.isIgnored then []
  else
    match event with
    | .text node address => [⟨node.chars, node.location, none, some address⟩]
    | .attr attr =>
      if rule.checksAttribute enclosing.tag? attr.name then
        attr.value.candidates (some attr.name)
      else []
    | .mustache node => node.candidates none
    | _ => []

/-- Where a check is. -/
structure Check where
  /-- What is still to be met. -/
  events : List Event
  /-- The texts of the last event that are still to be looked at, the first of them at hand. -/
  texts : List Candidate := []
  /-- How far the loops over the text at hand have come, once they have begun. -/
  pass : Option Allowlist.Pass := none
  progress : Progress := {}

/-- One step of a check. -/
inductive Advance (rule : Rule) : Check → Check → Prop where
  /-- The next event is met. -/
  | meet {event : Event} {events : List Event} {progress : Progress} :
      Advance rule ⟨event :: events, [], none, progress⟩
        ⟨events, rule.textsAt progress.enclosing event, none,
          { progress with enclosing := progress.enclosing.after event }⟩
  /-- A text without a location is passed over. -/
  | passOver {events : List Event} {text : Candidate} {texts : List Candidate}
      {progress : Progress} (unlocated : text.location = none) :
      Advance rule ⟨events, text :: texts, none, progress⟩ ⟨events, texts, none, progress⟩
  /-- The loops over a text begin. -/
  | begin {events : List Event} {text : Candidate} {texts : List Candidate} {progress : Progress}
      {location : Location} (located : text.location = some location) :
      Advance rule ⟨events, text :: texts, none, progress⟩
        ⟨events, text :: texts, some ⟨rule.allowlist, text.raw.toList⟩, progress⟩
  /-- A round of the loops is made. -/
  | round {events : List Event} {texts : List Candidate} {pass after : Allowlist.Pass}
      {progress : Progress} (round : Allowlist.Round pass after) :
      Advance rule ⟨events, texts, some pass, progress⟩ ⟨events, texts, some after, progress⟩
  /-- All entries have been taken out, and nothing but blanks is left. -/
  | allowed {events : List Event} {text : Candidate} {texts : List Candidate} {left : List Char}
      {progress : Progress} (blank : trimChars left = []) :
      Advance rule ⟨events, text :: texts, some ⟨[], left⟩, progress⟩
        ⟨events, texts, none, progress⟩
  /-- All entries have been taken out, and more than blanks is left: the text is a finding. -/
  | report {events : List Event} {text : Candidate} {texts : List Candidate} {left : List Char}
      {progress : Progress} {location : Location} (located : text.location = some location)
      (bare : trimChars left ≠ []) :
      Advance rule ⟨events, text :: texts, some ⟨[], left⟩, progress⟩
        ⟨events, texts, none,
          { progress with
            findings := progress.findings ++
              [⟨text.raw, location, text.attr, text.target⟩] }⟩

namespace Advance

variable {rule : Rule}

theorem rightUnique (rule : Rule) : Relator.RightUnique (Advance rule) := by
  intro check after other step alike
  cases step with
  | meet => cases alike with
    | meet => rfl
  | passOver unlocated => cases alike with
    | passOver => rfl
    | begin located => cases unlocated.symm.trans located
  | begin located => cases alike with
    | passOver unlocated => cases unlocated.symm.trans located
    | begin => rfl
  | round round => cases alike with
    | round alike => rw [round.deterministic alike]
    | allowed => cases round
    | report => cases round
  | allowed blank => cases alike with
    | round round => cases round
    | allowed => rfl
    | report _ bare => exact absurd blank bare
  | report located bare => cases alike with
    | round round => cases round
    | allowed blank => exact absurd blank bare
    | report locatedToo =>
      obtain rfl := Option.some.inj (located.symm.trans locatedToo)
      rfl

/-- A check with nothing to meet and nothing to look at is at its end. -/
theorem ended (progress : Progress) (after : Check) :
    ¬ Advance rule ⟨[], [], none, progress⟩ after := by
  intro step
  cases step

/-- A text is looked at and becomes a finding if it is to. -/
theorem reaches_next (usable : ∀ entry ∈ rule.allowlist, entry ≠ "") (events : List Event)
    (text : Candidate) (texts : List Candidate) (progress : Progress) :
    ReflTransGen (Advance rule) ⟨events, text :: texts, none, progress⟩
      ⟨events, texts, none,
        { progress with findings := progress.findings ++ (rule.accept? text).toList }⟩ := by
  cases located : text.location with
  | none => simpa [accept?, located] using .single (.passOver located)
  | some location =>
    have rounds : ReflTransGen (Advance rule)
        ⟨events, text :: texts, some ⟨rule.allowlist, text.raw.toList⟩, progress⟩
        ⟨events, text :: texts,
          some ⟨[], Allowlist.residue rule.allowlist text.raw.toList⟩, progress⟩ :=
      (Allowlist.Round.residue_rounds usable text.raw.toList).lift
        (fun pass => Check.mk events (text :: texts) (some pass) progress)
        fun _ _ round => .round round
    refine ((ReflTransGen.single (.begin located)).trans rounds).tail ?_
    by_cases blank : trimChars (Allowlist.residue rule.allowlist text.raw.toList) = []
    · simpa [accept?, located, Allowlist.bare?_eq_of_residue, blank] using .allowed blank
    · simpa [accept?, located, Allowlist.bare?_eq_of_residue, blank] using .report located blank

theorem reaches_no_text (usable : ∀ entry ∈ rule.allowlist, entry ≠ "") (events : List Event)
    (texts : List Candidate) (progress : Progress) :
    ReflTransGen (Advance rule) ⟨events, texts, none, progress⟩
      ⟨events, [], none,
        { progress with findings := progress.findings ++ texts.filterMap rule.accept? }⟩ := by
  induction texts generalizing progress with
  | nil => simpa using ReflTransGen.refl
  | cons text texts ih =>
    have rest := (reaches_next usable events text texts progress).trans (ih _)
    cases accepted : rule.accept? text <;> simpa [accepted] using rest

/-- What an event adds is what its texts add, one after another. -/
theorem step_eq (progress : Progress) (event : Event) :
    rule.step progress event =
      ⟨progress.enclosing.after event,
        progress.findings ++
          (rule.textsAt progress.enclosing event).filterMap rule.accept?⟩ := by
  cases event with
  | enter tag => simp [step, textsAt, Enclosing.after]
  | exit tag => simp [step, textsAt, Enclosing.after]
  | attr attr =>
    simp only [step, textsAt, Enclosing.after, eventFindings, attributeFindings, valueFindings_eq]
    split_ifs <;> simp
  | text node address =>
    simp only [step, textsAt, Enclosing.after, eventFindings, textFindings_eq]
    split_ifs <;> simp
  | mustache node =>
    simp only [step, textsAt, Enclosing.after, eventFindings, mustacheFindings_eq]
    split_ifs <;> simp

/-- A check meets all events, and then it has what the events add one after another. -/
theorem reaches_end (usable : ∀ entry ∈ rule.allowlist, entry ≠ "") (events : List Event)
    (progress : Progress) :
    ReflTransGen (Advance rule) ⟨events, [], none, progress⟩
      ⟨[], [], none, events.foldl rule.step progress⟩ := by
  induction events generalizing progress with
  | nil => exact .refl
  | cons event events ih =>
    rw [List.foldl_cons, step_eq]
    exact ((ReflTransGen.single .meet).trans (reaches_no_text usable events _ _)).trans (ih _)

end Advance

/-! ## Rules -/

/-- Whichever way a rule is configured, its allowlist has been sorted. -/
theorem exists_allowlist_eq {value : Json} {rule : Rule}
    (decoded : decode value = .ok (some rule)) :
    ∃ entries, rule.allowlist = Allowlist.longestFirst entries := by
  cases value with
  | bool on =>
    cases on with
    | true =>
      obtain rfl := Option.some.inj (Except.ok.inj decoded)
      exact ⟨Allowlist.defaultEntries, rfl⟩
    | false => cases decoded
  | array items =>
    obtain ⟨texts, -, built⟩ := decode_array_eq_ok_iff.mp decoded
    obtain rfl := Option.some.inj built
    exact ⟨texts, rfl⟩
  | object members =>
    obtain ⟨draft, -, built⟩ := decode_object_eq_ok_iff.mp decoded
    obtain rfl := Option.some.inj built
    -- A list without texts stands for the one that applies by default.
    by_cases empty : (if draft.allowlist.isEmpty then draft.whitelist else draft.allowlist).isEmpty
    · exact ⟨Allowlist.defaultEntries, by rw [Draft.finish, if_pos empty]; rfl⟩
    · exact ⟨_, by rw [Draft.finish, if_neg empty]⟩
  | _ => cases decoded

/-- The allowlist of every rule that a project can have, by configuration or by default, has no
empty entry and is sorted by length, longest first. So a round of the inner loop over a text always
shortens the text. A check with the rule therefore comes to an end on every template, and from
wherever it has got to, it comes to the findings of the template. -/
theorem configured_checks_end {rule : Rule}
    (configured : rule = Rule.default ∨ ∃ value, Rule.ofJson value = .ok (some rule)) :
    (∀ entry ∈ rule.allowlist, entry ≠ "") ∧
      (rule.allowlist.Pairwise fun a b => b.length ≤ a.length) ∧
      (∀ entry ∈ rule.allowlist, ∀ text, Allowlist.occursIn entry.toList text = true →
        (Allowlist.remove entry.toList text).length < text.length) ∧
      ∀ template : Template,
        Acc (fun after check => Advance rule check after) { events := template.events } ∧
          ∀ check, ReflTransGen (Advance rule) { events := template.events } check →
            ∃ last : Check, ReflTransGen (Advance rule) check last ∧
              (∀ after, ¬ Advance rule last after) ∧
              last.progress.findings = rule.findings template := by
  obtain ⟨entries, sorted⟩ : ∃ entries, rule.allowlist = Allowlist.longestFirst entries := by
    obtain rfl | ⟨value, read⟩ := configured
    · exact ⟨Allowlist.defaultEntries, rfl⟩
    · exact exists_allowlist_eq (ofJson_eq_ok_iff.mp read)
  have usable : ∀ entry ∈ rule.allowlist, entry ≠ "" := by
    rw [sorted]
    exact fun entry among => (Allowlist.mem_longestFirst.mp among).2
  refine ⟨usable, ?_, fun entry among text occurs => ?_, fun template => ?_⟩
  · rw [sorted]
    simpa only [String.length_toList] using Allowlist.pairwise_longestFirst entries
  · have nonempty := Allowlist.toList_ne_nil (usable entry among)
    exact Allowlist.length_lt_of_cuts nonempty (Allowlist.remove_cuts nonempty occurs)
  · have whole := Advance.reaches_end usable template.events {}
    have ended : ∀ after, ¬ Advance rule ⟨[], [], none, template.events.foldl rule.step {}⟩ after :=
      Advance.ended _
    refine ⟨acc_of_reaches (Advance.rightUnique rule) ended whole, fun check begun => ?_⟩
    exact ⟨_, reaches_last (Advance.rightUnique rule) ended whole begun, ended, rfl⟩

/-- A rule that is configured with an empty entry. -/
def sampleRule : Rule :=
  { Rule.default with allowlist := Allowlist.longestFirst ["", "b", "abc"] }

/-- The empty entry is left out, and a check with the rest ends on a text in which one entry is
inside the other. -/
theorem check_ends_despite_empty_entry :
    ofJson (.object [("whitelist", .array [.string "", .string "b", .string "abc"])]) =
        .ok (some sampleRule) ∧
      "" ∉ sampleRule.allowlist ∧
      Acc (fun after check => Advance sampleRule check after)
        { events := Template.events ⟨[.text ⟨"aabcbc", some ⟨1, 2⟩, []⟩], []⟩ } := by
  have read : ofJson (.object [("whitelist", .array [.string "", .string "b", .string "abc"])]) =
      .ok (some sampleRule) := rfl
  obtain ⟨usable, -, -, ends⟩ := configured_checks_end (.inr ⟨_, read⟩)
  exact ⟨read, fun among => usable "" among rfl, (ends _).1⟩

end Rule

end TemplateLint
