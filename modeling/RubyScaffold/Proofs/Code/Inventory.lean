import RubyScaffold.Proofs.Code.Constructor
import RubyScaffold.Proofs.Layout.Nesting

/-!
Every line that the file of a class is made of, before it is indented. What is to be shown of all
lines of a file is shown of each kind of line here.
-/

set_option autoImplicit false

namespace RubyScaffold.Code

open Layout

/-- The lines of the file of a class: what opens a block, what closes it and what stands inside. -/
inductive ClassLine (spec : ClassSpec) (settings : Settings) : Line → Prop
  | frozen : settings.frozenStringLiteral = true →
      ClassLine spec settings (.inner "# frozen_string_literal: true")
  | directive {d : String × String} : d ∈ spec.directives.entries →
      ClassLine spec settings (.inner ("# " ++ (d.1 ++ ": " ++ d.2)))
  | requires {path : String} : path ∈ spec.requires →
      ClassLine spec settings (.inner ("require \"" ++ path ++ "\""))
  | requiresRelative {path : String} : path ∈ spec.relativeRequires →
      ClassLine spec settings (.inner ("require_relative \"" ++ path ++ "\""))
  | scope {scope : String} : scope ∈ spec.scopes →
      ClassLine spec settings (.opening ("module " ++ scope))
  | header : ClassLine spec settings (.opening (headerLine spec.toClassOutline))
  | includes {name : String} : name ∈ spec.includes →
      ClassLine spec settings (.inner ("include " ++ name))
  | given {line : String} : line ∈ spec.topContents.flatMap Text.lines →
      ClassLine spec settings (.inner line)
  | constructor : ClassLine spec settings (.opening
      ("def initialize(" ++ String.intercalate ", " (spec.fieldNames.map (· ++ ":")) ++ ")"))
  | assignment {name : String} : name ∈ spec.fieldNames →
      ClassLine spec settings (.inner ("@" ++ name ++ " = " ++ name))
  | method {m : String × Option (List String)} : m ∈ spec.methods.entries →
      ClassLine spec settings (.opening (methodLine m.1 (m.2.getD [])))
  | restricted : ClassLine spec settings (.inner "private")
  | readers : spec.fields ≠ [] → ClassLine spec settings (.inner
      ("attr_reader " ++ String.intercalate ", " (spec.fieldNames.map (":" ++ ·))))
  | empty : ClassLine spec settings (.inner "")
  | close : ClassLine spec settings (.closing "end")

variable {kind : Line → Prop}

private theorem made_closedGroup {group : List Fragment} (empty : kind (.inner ""))
    (made : ∀ f ∈ group, f.Made kind) : ∀ f ∈ Preamble.closedGroup group, f.Made kind := by
  intro f mem
  unfold Preamble.closedGroup at mem
  split at mem
  · cases mem
  · rcases List.mem_append.mp mem with mem | mem
    · exact made f mem
    · obtain rfl := List.mem_singleton.mp mem
      exact .blank empty

private theorem made_method {m : Method} (opens : kind (.opening m.signature))
    (inside : ∀ line ∈ m.body, kind (.inner line)) (closes : kind (.closing "end")) :
    ∀ f ∈ m.fragments, f.Made kind := by
  intro f mem
  obtain rfl := List.mem_singleton.mp mem
  refine .block opens (fun g body => ?_) closes
  obtain ⟨line, memLine, rfl⟩ := List.mem_map.mp body
  exact .line (inside line memLine)

variable (spec : ClassSpec) (settings : Settings)

private theorem made_preamble : ∀ f ∈ (Preamble.ofClass spec.toClassOutline settings).fragments,
    f.Made (ClassLine spec settings) := by
  intro f mem
  rcases List.mem_append.mp mem with mem | mem
  · refine made_closedGroup .empty (fun f mem => ?_) f mem
    obtain ⟨c, memC, own⟩ := List.mem_flatMap.mp mem
    obtain rfl := List.mem_singleton.mp own
    rcases ((Preamble.commentsFor_spec spec.toClassOutline settings).2 c).mp memC with
      ⟨frozen, rfl⟩ | ⟨declared, -⟩
    · exact .comment (.frozen frozen)
    · exact .comment (.directive declared)
  · refine made_closedGroup .empty (fun f mem => ?_) f mem
    obtain ⟨r, memR, own⟩ := List.mem_flatMap.mp mem
    obtain rfl := List.mem_singleton.mp own
    have absolute : "require" ++ " \"" = "require \"" := by decide
    have relative : "require_relative" ++ " \"" = "require_relative \"" := by decide
    rcases List.mem_append.mp memR with memR | memR
    · obtain ⟨path, declared, rfl⟩ := List.mem_map.mp memR
      simp only [Bool.false_eq_true, if_false, absolute]
      exact .line (.requires declared)
    · obtain ⟨path, declared, rfl⟩ := List.mem_map.mp memR
      simp only [if_true, relative]
      exact .line (.requiresRelative declared)

private theorem made_constructor : ∀ f ∈ constructorSection spec.toClassOutline,
    f.Made (ClassLine spec settings) := by
  intro f mem
  unfold constructorSection at mem
  split at mem
  · cases mem
  · next filled =>
    have some : spec.fields ≠ [] := by simpa using filled
    refine made_method ?_ (fun line body => ?_) .close f mem
    · rw [spec.signature_constructor some]
      exact .constructor
    · obtain ⟨name, declared, rfl⟩ := List.mem_map.mp body
      exact .assignment declared

private theorem made_methods : ∀ f ∈ methodSection spec.toClassOutline,
    f.Made (ClassLine spec settings) := by
  refine Fragment.Made.separated .empty fun part memPart => ?_
  obtain ⟨m, declared, rfl⟩ := List.mem_map.mp memPart
  exact made_method (.method declared) (by simp) .close

private theorem made_readers : ∀ f ∈ readerSection spec.toClassOutline,
    f.Made (ClassLine spec settings) := by
  intro f mem
  unfold readerSection at mem
  split at mem
  · cases mem
  · next filled =>
    have some : spec.fields ≠ [] := by simpa using filled
    simp only [AttrReader.fragments, List.cons_append, List.nil_append, List.mem_cons,
      List.not_mem_nil, or_false] at mem
    rcases mem with rfl | rfl | rfl
    · exact .line .restricted
    · exact .blank .empty
    · exact .line (.readers some)

private theorem made_class : ∀ f ∈ classFragments spec.toClassOutline,
    f.Made (ClassLine spec settings) := by
  intro f mem
  obtain rfl := List.mem_singleton.mp mem
  refine .block ?_ (Fragment.Made.separated .empty fun part memPart => ?_) .close
  · have same : classHeader spec.toClassOutline = headerLine spec.toClassOutline := by
      unfold classHeader headerLine
      cases spec.parent <;> rfl
    rw [same]
    exact .header
  · simp only [List.mem_cons, List.not_mem_nil, or_false] at memPart
    rcases memPart with rfl | rfl | rfl | rfl | rfl
    · intro g inside
      obtain ⟨name, declared, own⟩ := List.mem_flatMap.mp inside
      obtain rfl := List.mem_singleton.mp own
      exact .line (.includes declared)
    · intro g inside
      obtain ⟨line, declared, rfl⟩ := List.mem_map.mp inside
      exact .line (.given declared)
    · exact made_constructor spec settings
    · exact made_methods spec settings
    · exact made_readers spec settings

/-- A file is made of the lines of its class, and all of its blocks are closed. -/
private theorem made_fragments :
    ∀ f ∈ spec.fragments settings, f.Made (ClassLine spec settings) := by
  intro f mem
  rcases List.mem_append.mp mem with mem | mem
  · exact made_preamble spec settings f mem
  · exact Fragment.Made.inScopes (fun _ declared => .scope declared) .close
      (made_class spec settings) f mem

/-- The rows of a file are its lines, each behind two spaces for every block around it. -/
theorem nested_layoutRows :
    Nested 0 (linesOf (spec.fragments settings)) (layoutRows spec.toClassOutline settings) 0 := by
  rw [← rowsOf_fragments]
  exact Fragment.Made.nested_list (made_fragments spec settings) 0

theorem classLine_of_mem :
    ∀ line ∈ linesOf (spec.fragments settings), ClassLine spec settings line :=
  Fragment.Made.kind_of_mem_list (made_fragments spec settings)

theorem exists_classLine : ∀ r ∈ layoutRows spec.toClassOutline settings,
    ∃ line, ClassLine spec settings line ∧ ∃ level, r = placed level line.text := by
  intro r mem
  obtain ⟨line, memLine, level, own⟩ := (nested_layoutRows spec settings).exists_line r mem
  exact ⟨line, classLine_of_mem spec settings line memLine, level, own⟩

end RubyScaffold.Code
