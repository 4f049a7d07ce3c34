import Mathlib.Tactic.SplitIfs
import ProtoLink.Proofs.Settings.Entry

/-! What a parameter sets. An assignment sets one field or is skipped, and of those that set a field the last one
counts. -/
namespace ProtoLink

theorem Style.ofName?_eq_some_iff {value : String} {style : Style} :
    ofName? value = some style ↔ value = style.name := by
  constructor
  · intro h
    rw [ofName?] at h
    split_ifs at h with hgrpcJs hasync
    · exact Option.some.inj h ▸ hgrpcJs
    · exact Option.some.inj h ▸ hasync
  · rintro rfl
    exact style.ofName?_name

namespace Parameter

open Diagnostic (Finding Kind)

namespace Assignment

/-- What a flag is set to. Only `false` turns it off. -/
def flag? (key : String) (a : Assignment) : Option Bool :=
  if a.key = key then some (a.value? ≠ some "false") else none

def package? (a : Assignment) : Option String := if a.key = "grpc_package" then a.value? else none

def style? (a : Assignment) : Option Style := if a.key = "style" then a.value?.bind Style.ofName? else none

/-- What can be amiss with an assignment: its key, that it has no value, or its value. -/
def IsAmiss (a : Assignment) : Kind → Prop
  | .unknownOption => a.key ∉ ["unary_rpc_promise", "no_namespace", "grpc_package", "style"]
  | .malformedOption => a.key ∈ ["grpc_package", "style"] ∧ a.value? = none
  | .invalidOptionValue => a.key = "style" ∧ ∃ value ∈ a.value?, Style.ofName? value = none
  | .duplicateSymbol | .unknownType => False

/-- An assignment is skipped if anything is amiss with it. -/
def IsSkipped (a : Assignment) : Prop :=
  a.IsAmiss .unknownOption ∨ a.IsAmiss .malformedOption ∨ a.IsAmiss .invalidOptionValue

instance : DecidablePred IsSkipped := fun _ =>
  inferInstanceAs (Decidable ((_ ∉ _) ∨ (_ ∈ _ ∧ _) ∨ (_ = _ ∧ ∃ value ∈ _, _)))

theorem isSkipped_iff {a : Assignment} : a.IsSkipped ↔
    a.key ∉ ["unary_rpc_promise", "no_namespace", "grpc_package", "style"] ∨
      a.key ∈ ["grpc_package", "style"] ∧ a.value? = none ∨
      a.key = "style" ∧ ∃ value ∈ a.value?, Style.ofName? value = none := Iff.rfl

theorem IsAmiss.isSkipped {a : Assignment} {kind : Kind} (h : a.IsAmiss kind) : a.IsSkipped := by
  cases kind with
  | unknownOption => exact Or.inl h
  | malformedOption => exact Or.inr (Or.inl h)
  | invalidOptionValue => exact Or.inr (Or.inr h)
  | duplicateSymbol => exact h.elim
  | unknownType => exact h.elim

end Assignment

/-- What is chosen by the last of the assignments that choose anything. -/
def last? {α : Type} (choice? : Assignment → Option α) (assignments : List Assignment) : Option α :=
  (assignments.filterMap choice?).getLast?

variable {α : Type} (choice? : Assignment → Option α) (a : Assignment)

theorem last?_singleton : last? choice? [a] = choice? a := by
  cases h : choice? a <;> simp [last?, h]

theorem getD_last?_cons (assignments : List Assignment) (start : α) :
    (last? choice? (a :: assignments)).getD start = (last? choice? assignments).getD ((choice? a).getD start) := by
  cases h : choice? a with
  | none => simp [last?, h]
  | some value =>
    cases hlast : (assignments.filterMap choice?).getLast? <;> simp [last?, h, hlast, List.getLast?_cons]

end Parameter

namespace Settings

open Parameter (Assignment last?)

/-- The settings after assignments. A field that none of them sets is left as it is. -/
def assign (settings : Settings) (assignments : List Assignment) : Settings where
  unaryRpcPromise := (last? (Assignment.flag? "unary_rpc_promise") assignments).getD settings.unaryRpcPromise
  grpcPackage := (last? Assignment.package? assignments).getD settings.grpcPackage
  noNamespace := (last? (Assignment.flag? "no_namespace") assignments).getD settings.noNamespace
  style := (last? Assignment.style? assignments).getD settings.style

variable (settings : Settings) {a : Assignment}

theorem assign_cons (a : Assignment) (assignments : List Assignment) :
    settings.assign (a :: assignments) = (settings.assign [a]).assign assignments := by
  simp only [assign, Parameter.getD_last?_cons, Parameter.last?_singleton]

/-- One assignment sets the field that its key stands for, if its value will do. -/
theorem assign_singleton (a : Assignment) : settings.assign [a] =
    { unaryRpcPromise :=
        if a.key = "unary_rpc_promise" then decide (a.value? ≠ some "false") else settings.unaryRpcPromise
      grpcPackage := if a.key = "grpc_package" then a.value?.getD settings.grpcPackage else settings.grpcPackage
      noNamespace := if a.key = "no_namespace" then decide (a.value? ≠ some "false") else settings.noNamespace
      style :=
        if a.key = "style" then (a.value?.bind Style.ofName?).getD settings.style else settings.style } := by
  simp only [assign, Parameter.last?_singleton, Assignment.flag?, Assignment.package?, Assignment.style?]
  congr 1 <;> split <;> rfl

theorem assign_of_isSkipped (h : a.IsSkipped) : settings.assign [a] = settings := by
  rw [assign_singleton]
  rcases h with hkey | ⟨hkey, hvalue⟩ | ⟨hkey, value, hvalue, hstyle⟩
  · simp only [Assignment.IsAmiss, List.mem_cons, List.not_mem_nil, or_false, not_or] at hkey
    simp [hkey]
  · simp only [List.mem_cons, List.not_mem_nil, or_false] at hkey
    rcases hkey with hkey | hkey <;> simp [hkey, hvalue]
  · simp [hkey, Option.mem_def.1 hvalue, hstyle]

end Settings

namespace Parameter

open Diagnostic (Finding Kind)

variable {e : Entry}

theorem key_eq_iff {key : String} : e.key = key.toList ↔ e.assignment.key = key := by
  rw [Entry.assignment, ← String.toList_inj, String.toList_ofList]

theorem flag_eq (e : Entry) : e.flag = decide (e.assignment.value? ≠ some "false") := by
  cases hvalue : e.value? with
  | none => simp [Entry.flag, Entry.assignment, hvalue]
  | some value => simp [Entry.flag, Entry.assignment, hvalue, ← String.toList_inj]

/-- What is amiss with an entry, and where. -/
def Concerns (f : Finding) (e : Entry) : Prop :=
  e.assignment.IsAmiss f.kind ∧ f.span? = some (if f.kind = .unknownOption then e.keySpan else e.span)

/-- What is read from an entry is what its assignment sets, or what is amiss with it. -/
def Agrees (e : Entry) : Except Finding Setting → Prop
  | .ok setting => ¬ e.assignment.IsSkipped ∧
    ∀ settings : Settings, settings.choose setting = settings.assign [e.assignment]
  | .error finding => Concerns finding e

theorem agrees_read (e : Entry) : Agrees e e.read := by
  have hvalue : e.assignment.value? = e.value?.map .ofList := rfl
  rw [Entry.read]
  split_ifs with hpromise hnamespace hpackage hstyle <;> simp only [key_eq_iff] at *
  · refine ⟨by simp [Assignment.isSkipped_iff, hpromise], fun settings => ?_⟩
    simp [Settings.assign_singleton, Settings.choose, hpromise, flag_eq]
  · refine ⟨by simp [Assignment.isSkipped_iff, hnamespace], fun settings => ?_⟩
    simp [Settings.assign_singleton, Settings.choose, hnamespace, flag_eq]
  · cases hgiven : e.value? with
    | none => exact ⟨⟨by simp [hpackage], by simp [hvalue, hgiven]⟩, rfl⟩
    | some value =>
      refine ⟨by simp [Assignment.isSkipped_iff, hpackage, hvalue, hgiven], fun settings => ?_⟩
      simp [Settings.assign_singleton, Settings.choose, hpackage, hvalue, hgiven]
  · cases hgiven : e.value? with
    | none => exact ⟨⟨by simp [hstyle], by simp [hvalue, hgiven]⟩, rfl⟩
    | some value =>
      cases hname : Style.ofName? (.ofList value) with
      | none =>
        simp only [hname]
        exact ⟨⟨hstyle, _, by simp [hvalue, hgiven], hname⟩, rfl⟩
      | some style =>
        simp only [hname]
        refine ⟨by simp [Assignment.isSkipped_iff, hstyle, hvalue, hgiven, hname], fun settings => ?_⟩
        simp [Settings.assign_singleton, Settings.choose, hstyle, hvalue, hgiven, hname]
  · exact ⟨by simp [Entry.unknown, Assignment.IsAmiss, hpromise, hnamespace, hpackage, hstyle], rfl⟩

/-- One entry does to the settings what its assignment does. -/
theorem step_fst (state : Settings × List Finding) (e : Entry) :
    (step state e).1 = state.1.assign [e.assignment] := by
  have hagrees := agrees_read e
  rw [step]
  cases hread : e.read with
  | ok setting =>
    rw [hread] at hagrees
    exact hagrees.2 state.1
  | error finding =>
    rw [hread] at hagrees
    exact (Settings.assign_of_isSkipped state.1 hagrees.1.isSkipped).symm

theorem foldl_step_fst (es : List Entry) (state : Settings × List Finding) :
    (es.foldl step state).1 = state.1.assign (es.map Entry.assignment) := by
  induction es generalizing state with
  | nil => rfl
  | cons e es ih => rw [List.foldl_cons, ih, step_fst, List.map_cons, ← Settings.assign_cons]

/-- Each field has what the last entry with its key sets it to, and its default if there is none. An entry that needs a
value or the name of a style and has none sets nothing. -/
theorem settings_parse (text : String) :
    let assignments := (entries text.toList).map Entry.assignment
    (∀ e, e ∈ entries text.toList ↔ e.StandsIn text.toList ∧ e.text ≠ []) ∧
    (entries text.toList).Pairwise (fun d e => d.start < e.start) ∧
    (∀ (e : Entry) (a : Assignment), Assigns e.text a ↔ e.assignment = a) ∧
    (∀ value style, Style.ofName? value = some style ↔ value = style.name) ∧
    (parse text).1 =
      { unaryRpcPromise := (last? (Assignment.flag? "unary_rpc_promise") assignments).getD false
        grpcPackage := (last? Assignment.package? assignments).getD "@fyn-software/grpc"
        noNamespace := (last? (Assignment.flag? "no_namespace") assignments).getD true
        style := (last? Assignment.style? assignments).getD .async } := by
  intro assignments
  refine ⟨fun e => mem_entries_iff, pairwise_start_entries _, fun e a => assigns_iff,
    fun value style => Style.ofName?_eq_some_iff, ?_⟩
  exact foldl_step_fst (entries text.toList) ({}, [])

/-- A bare key turns a flag on and leaves the package alone, and a style without a name leaves the style alone. -/
example : (parse "no_namespace=false,grpc_package=a=b,style=grpc-js,,grpc_package,style=x,no_namespace").1 =
    { grpcPackage := "a", style := .grpcJs } := by decide

end Parameter
end ProtoLink
