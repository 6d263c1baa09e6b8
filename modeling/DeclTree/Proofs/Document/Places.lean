import DeclTree.Document.Basic
import Mathlib.Data.List.Basic

/-!
# Places of documents

A place is read from the root of a document on, step by step: a field leads from a node to what it
has in that field, an index from a list to one of its entries. `Spot.at?` is what the place leads
to, if it exists.

A place is written as one text. The names of fields hold neither dots nor brackets, so the text says
how it is to be read: of the places that exist, each has a text of its own, `Spot.eq_of_text_eq`.
-/

set_option autoImplicit false
set_option relaxedAutoImplicit false

namespace DeclTree.Document

/-! ### Following a place -/

/-- What stands at a place of a document. -/
inductive Spot where
  | node (doc : Document)
  | nodes (docs : List Document)
  | name (text : String)
  | names (texts : List String)
  | receiver (r : Receiver)

/-- A name that is written; an empty one is not there. -/
def Spot.name? (text : String) : Option Spot := if text = "" then none else some (.name text)

/-- A node in a slot that may be left empty. -/
def Spot.slot? : Document → Option Spot
  | .null => none
  | .node record => some (.node (.node record))

/-- What a node has in a field that holds nodes, names or a receiver. -/
def Record.spot? (record : Record) : String → Option Spot
  | "name" => Spot.name? record.fields.name
  | "short_name" => Spot.name? record.fields.shortName
  | "imports" => some (.names record.fields.imports)
  | "extend" => record.fields.receiver.map .receiver
  | "type_parameters" => some (.nodes record.typeParameters)
  | "parents" => some (.nodes record.parents)
  | "members" => some (.nodes record.members)
  | "parameters" => some (.nodes record.parameters)
  | "type" => Spot.slot? record.type
  | "params" => some (.nodes record.params)
  | "constraints" => some (.nodes record.constraints)
  | "default" => Spot.slot? record.default
  | "declarations" => some (.nodes record.declarations)
  | "submodules" => some (.nodes record.submodules)
  | _ => none

namespace Spot

/-- Where one step leads: a field of a node, an entry of a list. -/
def step? : Spot → Step → Option Spot
  | .node (.node record), .field key => record.spot? key
  | .nodes docs, .index i => docs[i]?.map .node
  | .names texts, .index i => texts[i]?.map .name
  | _, _ => none

/-- What stands at a place, read from here on. -/
def at? (spot : Spot) : Place → Option Spot
  | [] => some spot
  | step :: place => (spot.step? step).bind fun next ↦ next.at? place

theorem at?_cons_of_step {spot next : Spot} {step : Step} (hstep : spot.step? step = some next)
    (place : Place) : spot.at? (step :: place) = next.at? place := by
  rw [at?, hstep, Option.bind_some]

end Spot

/-! ### The text of a place -/

/-- Whether the name of a field, where there is one, holds neither a dot nor a bracket. -/
def Step.IsPlain : Step → Prop
  | .field name => '.' ∉ name.toList ∧ '[' ∉ name.toList
  | .index _ => True

/-- Whether a list begins with a character that separates steps, if it is not empty. -/
def BeginsStep (cs : List Char) : Prop := ∀ c ∈ cs.head?, c = '.' ∨ c = '['

theorem Record.isPlain_of_spot? {record : Record} {name : String}
    (hname : record.spot? name ≠ none) : (Step.field name).IsPlain := by
  unfold Record.spot? at hname
  unfold Step.IsPlain
  split at hname
  case h_15 => exact absurd rfl hname
  all_goals decide

theorem Spot.isPlain_of_step? {spot : Spot} {step : Step} (hstep : spot.step? step ≠ none) :
    step.IsPlain := by
  cases step with
  | index i => trivial
  | field name =>
    cases spot with
    | node doc =>
      cases doc with
      | null => exact absurd rfl hstep
      | node record => exact Record.isPlain_of_spot? hstep
    | _ => exact absurd rfl hstep

theorem Spot.isPlain_of_at? {spot : Spot} {place : Place} (hplace : spot.at? place ≠ none) :
    ∀ step ∈ place, step.IsPlain := by
  induction place generalizing spot with
  | nil => exact List.forall_mem_nil _
  | cons step place ih =>
    rw [Spot.at?] at hplace
    cases hstep : spot.step? step with
    | none =>
      rw [hstep] at hplace
      exact absurd rfl hplace
    | some next =>
      rw [hstep] at hplace
      have hplain : step.IsPlain := Spot.isPlain_of_step? (hstep ▸ Option.some_ne_none next)
      exact List.forall_mem_cons.mpr ⟨hplain, ih hplace⟩

theorem Place.toList_text (place : Place) :
    place.text.toList = '$' :: place.flatMap fun step ↦ step.text.toList := by
  have hfold : ∀ (rest : Place) (text : String),
      (rest.foldl (fun text step ↦ text ++ step.text) text).toList =
        text.toList ++ rest.flatMap fun step ↦ step.text.toList := by
    intro rest
    induction rest with
    | nil => simp
    | cons step rest ih =>
      intro text
      rw [List.foldl_cons, ih, String.toList_append, List.flatMap_cons, List.append_assoc]
  exact hfold place "$"

theorem Step.toList_text_field (name : String) :
    (Step.field name).text.toList = '.' :: name.toList := by
  rw [Step.text, String.toList_append]
  rfl

theorem Step.toList_text_index (i : Nat) :
    (Step.index i).text.toList = '[' :: (Nat.toDigits 10 i ++ [']']) := by
  simp only [Step.text, String.toList_append, Nat.toString_eq_ofList_toDigits,
    String.toList_ofList]
  rfl

theorem beginsStep_flatMap (place : Place) :
    BeginsStep (place.flatMap fun step ↦ step.text.toList) := by
  cases place with
  | nil => exact nofun
  | cons step place =>
    intro c hc
    cases step with
    | field name =>
      rw [List.flatMap_cons, Step.toList_text_field] at hc
      exact .inl (Option.some.inj hc).symm
    | index i =>
      rw [List.flatMap_cons, Step.toList_text_index] at hc
      exact .inr (Option.some.inj hc).symm

/-- Two texts that go on with a stop, and have none before, go on at the same point. -/
theorem append_inj_of_stop {stop : Char → Prop} {as bs xs ys : List Char}
    (has : ∀ c ∈ as, ¬stop c) (hbs : ∀ c ∈ bs, ¬stop c) (hxs : ∀ c ∈ xs.head?, stop c)
    (hys : ∀ c ∈ ys.head?, stop c) (heq : as ++ xs = bs ++ ys) : as = bs ∧ xs = ys := by
  induction as generalizing bs with
  | nil =>
    cases bs with
    | nil => exact ⟨rfl, heq⟩
    | cons b bs =>
      have hx : b ∈ xs.head? := by
        rw [List.nil_append] at heq
        rw [heq]
        exact Option.mem_some.mpr rfl
      exact absurd (hxs b hx) (hbs b List.mem_cons_self)
  | cons a as ih =>
    cases bs with
    | nil =>
      have hy : a ∈ ys.head? := by
        rw [List.nil_append] at heq
        rw [← heq]
        exact Option.mem_some.mpr rfl
      exact absurd (hys a hy) (has a List.mem_cons_self)
    | cons b bs =>
      rw [List.cons_append, List.cons_append, List.cons.injEq] at heq
      obtain ⟨rfl, hrest⟩ := heq
      obtain ⟨rfl, hxy⟩ := ih (fun c hc ↦ has c (List.mem_cons_of_mem a hc))
        (fun c hc ↦ hbs c (List.mem_cons_of_mem a hc)) hrest
      exact ⟨rfl, hxy⟩

theorem toDigits_injective {i j : Nat} (h : Nat.toDigits 10 i = Nat.toDigits 10 j) : i = j := by
  have hread := congrArg (fun digits ↦ Nat.ofDigitChars 10 digits 0) h
  simpa only [Nat.ofDigitChars_ten_toDigits] using hread

/-- Where a text begins with a plain step, it says which one. -/
theorem step_text_inj {first second : Step} (hfirst : first.IsPlain) (hsecond : second.IsPlain)
    {xs ys : List Char} (hxs : BeginsStep xs) (hys : BeginsStep ys)
    (heq : first.text.toList ++ xs = second.text.toList ++ ys) : first = second ∧ xs = ys := by
  cases first with
  | field name =>
    cases second with
    | field name' =>
      rw [Step.toList_text_field, Step.toList_text_field, List.cons_append, List.cons_append,
        List.cons_inj_right] at heq
      have hplain : ∀ text : String, (Step.field text).IsPlain →
          ∀ c ∈ text.toList, ¬(c = '.' ∨ c = '[') := by
        rintro text ⟨hdot, hbracket⟩ c hc (rfl | rfl)
        · exact hdot hc
        · exact hbracket hc
      obtain ⟨hname, hrest⟩ :=
        append_inj_of_stop (hplain name hfirst) (hplain name' hsecond) hxs hys heq
      exact ⟨congrArg Step.field (String.toList_injective hname), hrest⟩
    | index j =>
      rw [Step.toList_text_field, Step.toList_text_index] at heq
      exact absurd (List.head_eq_of_cons_eq heq) (by decide)
  | index i =>
    cases second with
    | field name' =>
      rw [Step.toList_text_field, Step.toList_text_index] at heq
      exact absurd (List.head_eq_of_cons_eq heq) (by decide)
    | index j =>
      rw [Step.toList_text_index, Step.toList_text_index, List.cons_append, List.cons_append,
        List.cons_inj_right, List.append_assoc, List.append_assoc] at heq
      have hdigits : ∀ n : Nat, ∀ c ∈ Nat.toDigits 10 n, c ≠ ']' := by
        rintro n _ hc rfl
        exact absurd (Nat.isDigit_of_mem_toDigits (by decide) (by decide) hc) (by decide)
      have hends : ∀ zs : List Char, ∀ c ∈ ([']'] ++ zs).head?, c = ']' :=
        fun zs c hc ↦ (Option.some.inj hc).symm
      obtain ⟨hindex, hrest⟩ :=
        append_inj_of_stop (hdigits i) (hdigits j) (hends xs) (hends ys) heq
      exact ⟨congrArg Step.index (toDigits_injective hindex), List.append_cancel_left hrest⟩

theorem flatMap_text_inj {first second : Place} (hfirst : ∀ step ∈ first, step.IsPlain)
    (hsecond : ∀ step ∈ second, step.IsPlain)
    (heq : (first.flatMap fun step ↦ step.text.toList) =
      second.flatMap fun step ↦ step.text.toList) : first = second := by
  have hnonempty : ∀ step : Step, step.text.toList ≠ [] := by
    intro step
    cases step with
    | field name => rw [Step.toList_text_field]; exact List.cons_ne_nil _ _
    | index i => rw [Step.toList_text_index]; exact List.cons_ne_nil _ _
  induction first generalizing second with
  | nil =>
    cases second with
    | nil => rfl
    | cons step second =>
      exact absurd (List.append_eq_nil_iff.mp heq.symm).1 (hnonempty step)
  | cons step first ih =>
    cases second with
    | nil => exact absurd (List.append_eq_nil_iff.mp heq).1 (hnonempty step)
    | cons step' second =>
      obtain ⟨hstep, hsteps⟩ := List.forall_mem_cons.mp hfirst
      obtain ⟨hstep', hsteps'⟩ := List.forall_mem_cons.mp hsecond
      obtain ⟨rfl, hrest⟩ := step_text_inj hstep hstep' (beginsStep_flatMap first)
        (beginsStep_flatMap second) heq
      rw [ih hsteps hsteps' hrest]

/-- Places that exist are told apart by their texts, also in different documents. -/
theorem Spot.eq_of_text_eq {spot spot' : Spot} {place place' : Place}
    (hplace : spot.at? place ≠ none) (hplace' : spot'.at? place' ≠ none)
    (htext : place.text = place'.text) : place = place' := by
  have hlist := congrArg String.toList htext
  rw [Place.toList_text, Place.toList_text, List.cons_inj_right] at hlist
  exact flatMap_text_inj (isPlain_of_at? hplace) (isPlain_of_at? hplace') hlist

end DeclTree.Document
