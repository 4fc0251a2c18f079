import RubyScaffold.Proofs.Class.Building
import RubyScaffold.Proofs.Code.Reference
import RubyScaffold.Proofs.Manifest.JsonSchema
import RubyScaffold.Proofs.Manifest.Members
import RubyScaffold.Proofs.Writings

/-!
Methods and directives that are declared more than once, step by step or in the objects of a
manifest. A later declaration takes the place of the first one, in the outline and in the class that
is written from it.
-/

set_option autoImplicit false

namespace RubyScaffold

open Json (Value)
open Layout (Fragment separated separated_eq_intercalate)

def Tree.inClass {π φ : Type} (key : String) (root : Tree π φ) : List (Tree π φ) :=
  (root.under ["settings", "class"] "class").flatMap (Tree.under Schema.classKeys key)

/-- The methods that an object writes, one for every member: null stands for a method without
parameters. -/
def Schema.methodWritings (object : List (String × Value)) :
    List (String × Option (List String)) :=
  object.map fun w => (w.1, w.2.asOption Value.asTexts)

def Schema.directiveWritings (object : List (String × Value)) : List (String × DirectiveValue) :=
  object.map fun w => (w.1, w.2.asDirective)

def Code.definition (method : String × Option (List String)) : Fragment :=
  .block (methodLine method.1 (method.2.getD [])) [] (some "end")

private theorem Code.methodSection_eq {δ : Type} (c : ClassOutline δ) :
    methodSection c = (c.methods.entries.map definition).intersperse .blank := by
  have whole : ∀ part ∈ c.methods.entries.map (fun m => [definition m]),
      (!part.isEmpty) = true := by
    intro part mem
    obtain ⟨m, -, rfl⟩ := List.mem_map.mp mem
    rfl
  have single : ∀ methods : List (String × Option (List String)),
      [Fragment.blank].intercalate (methods.map fun m => [definition m]) =
        (methods.map definition).intersperse .blank := by
    intro methods
    induction methods with
    | nil => rfl
    | cons m rest ih =>
      cases rest with
      | nil => rfl
      | cons n rest => simpa using ih
  have each : methodSection c = separated (c.methods.entries.map fun m => [definition m]) := rfl
  rw [each, separated_eq_intercalate, List.filter_eq_self.mpr whole, single]

namespace ClassOutline

private theorem methods_ofSteps (name : String) (steps : List ClassStep) :
    (ofSteps name steps).methods = .ofList (Supply.ofSteps steps).methods := by
  rw [ofSteps, Supply.foldl_apply_eq_addTo]
  rfl

private theorem directives_ofSteps (name : String) (steps : List ClassStep) :
    (ofSteps name steps).directives = .ofList (Supply.ofSteps steps).directives := by
  rw [ofSteps, Supply.foldl_apply_eq_addTo]
  rfl

end ClassOutline

namespace Decode

variable {π φ : Type} {object : List (String × Value)} {u : Tree π φ}

private theorem methods_of_object (held : (Value.table object).HeldBy u)
    (m : OrderedMap (Option (List String))) :
    map (nullable texts) u = .ok m ↔
      (∀ w ∈ object, w.2.OrNull Value.IsTexts) ∧
        Settles (Schema.methodWritings object) m.entries := by
  rw [reads_map (reads_nullable reads_texts) _ u held, OrderedMap.settles_iff]
  rfl

private theorem directives_of_object (held : (Value.table object).HeldBy u)
    (m : OrderedMap DirectiveValue) :
    map directiveValue u = .ok m ↔
      (∀ w ∈ object, w.2.IsScalar ∧ w.2.InWord) ∧
        Settles (Schema.directiveWritings object) m.entries := by
  rw [reads_map reads_directive _ u held, OrderedMap.settles_iff]
  rfl

end Decode

/-- The maps of a decoded manifest come from the objects that its text has for them. -/
private theorem Manifest.maps_of_json {text source : String} {m : Manifest}
    (decoded : decode .json text source = .ok m) (u : Json.JsonTree) :
    (u ∈ (Json.read Decode.asked text).root.inClass "methods" →
      Decode.map (Decode.nullable Decode.texts) u = .ok m.cls.methods) ∧
    (u ∈ (Json.read Decode.asked text).root.inClass "directives" →
      Decode.map Decode.directiveValue u = .ok m.cls.directives) := by
  rw [decode, mapError_eq_ok, decodeJson_eq_ok_iff] at decoded
  constructor
  · intro there
    obtain ⟨cls, inManifest, inCls⟩ := List.mem_flatMap.mp there
    exact (Decode.maps_of_decode (Decode.cls_of_manifest decoded.1 inManifest)).1 inCls
  · intro there
    obtain ⟨cls, inManifest, inCls⟩ := List.mem_flatMap.mp there
    exact (Decode.maps_of_decode (Decode.cls_of_manifest decoded.1 inManifest)).2 inCls

/-- A declaration that comes again takes the place of the first one. The methods and the directives
of an outline made step by step, and those that an object of a manifest gives, list every name that
was declared once, in the order of the first declarations, each as it was declared last; an object
gives a map wherever its values fit. In a class that passes the check there is one definition for
each of these methods, in the same order. -/
theorem redeclared_in_place :
    (∀ (name : String) (steps : List ClassStep),
      Settles (Supply.ofSteps steps).methods (ClassOutline.ofSteps name steps).methods.entries ∧
      Settles (Supply.ofSteps steps).directives
        (ClassOutline.ofSteps name steps).directives.entries ∧
      ∀ spec, (ClassOutline.ofSteps name steps).check = .ok spec →
        Code.methodSection spec.toClassOutline =
          ((ClassOutline.ofSteps name steps).methods.entries.map Code.definition).intersperse
            .blank) ∧
    (∀ (object : List (String × Value)) (u : Json.JsonTree), (Value.table object).HeldBy u →
      (∀ m, Decode.map (Decode.nullable Decode.texts) u = .ok m ↔
        (∀ w ∈ object, w.2.OrNull Value.IsTexts) ∧
          Settles (Schema.methodWritings object) m.entries) ∧
      (∀ m, Decode.map Decode.directiveValue u = .ok m ↔
        (∀ w ∈ object, w.2.IsScalar ∧ w.2.InWord) ∧
          Settles (Schema.directiveWritings object) m.entries) ∧
      ∀ (text source : String) (m : Manifest), Manifest.decode .json text source = .ok m →
        (u ∈ (Json.read Decode.asked text).root.inClass "methods" →
          Settles (Schema.methodWritings object) m.cls.methods.entries ∧
          ∀ spec, m.cls.toSpec = .ok spec →
            Code.methodSection spec.toClassOutline =
              (m.cls.methods.entries.map Code.definition).intersperse .blank) ∧
        (u ∈ (Json.read Decode.asked text).root.inClass "directives" →
          Settles (Schema.directiveWritings object) m.cls.directives.entries)) := by
  constructor
  · intro name steps
    refine ⟨?_, ?_, fun spec accepted => ?_⟩
    · rw [ClassOutline.methods_ofSteps]
      exact OrderedMap.settles_ofList _
    · rw [ClassOutline.directives_ofSteps]
      exact OrderedMap.settles_ofList _
    · rw [Code.methodSection_eq, ClassOutline.check_eq_ok_iff.mp accepted]
  · intro object u held
    refine ⟨Decode.methods_of_object held, Decode.directives_of_object held, ?_⟩
    intro text source m decoded
    have maps := Manifest.maps_of_json decoded u
    refine ⟨fun there => ⟨?_, fun spec accepted => ?_⟩, fun there => ?_⟩
    · exact ((Decode.methods_of_object held _).mp (maps.1 there)).2
    · have same : spec.toClassOutline = m.cls.displayed :=
        ClassOutline.check_eq_ok_iff.mp accepted
      rw [Code.methodSection_eq, same]
      rfl
    · exact ((Decode.directives_of_object held _).mp (maps.2 there)).2

/-- Steps that declare two methods and a directive more than once, with other steps between. -/
def kettleSteps : List ClassStep :=
  [.method "pour" ["cup"], .directive "warm" "no", .methodWithoutParams "boil", .fields ["@lid"],
    .method "pour" ["cup", "saucer"], .directive "note" "4", .method "boil" ["water"],
    .directive "warm" "yes", .methodWithoutParams "pour"]

def kettleMethods : List (String × Value) :=
  [("pour", .list [.text "cup"]), ("boil", .null), ("pour", .null),
    ("boil", .list [.text "water"])]

def kettleDirectives : List (String × Value) :=
  [("warm", .integer 1), ("note", .text "4"), ("warm", .bool true)]

def kettleJson : String :=
  "\x7b\"class\":\x7b\"name\":\"Kettle\"," ++
    "\"methods\":\x7b\"pour\":[\"cup\"],\"boil\":null,\"pour\":null,\"boil\":[\"water\"]\x7d," ++
    "\"directives\":\x7b\"warm\":1,\"note\":\"4\",\"warm\":true\x7d\x7d\x7d"

theorem redeclared_in_place_kettle :
    (∃ spec, (ClassOutline.ofSteps "Kettle" kettleSteps).check = .ok spec ∧
      Code.methodSection spec.toClassOutline =
        [.block "def pour" [] (some "end"), .blank, .block "def boil(water)" [] (some "end")]) ∧
    (ClassOutline.ofSteps "Kettle" kettleSteps).directives.entries =
      [("warm", "yes"), ("note", "4")] ∧
    ∃ m, Manifest.decode .json kettleJson "kettle.json" = .ok m ∧
      m.cls.methods.entries = [("pour", none), ("boil", some ["water"])] ∧
      m.cls.directives.entries = [("warm", .bool true), ("note", .text "4")] := by
  obtain ⟨stepwise, objects⟩ := redeclared_in_place
  obtain ⟨methods, directives, defined⟩ := stepwise "Kettle" kettleSteps
  have pours : (ClassOutline.ofSteps "Kettle" kettleSteps).methods.entries =
      [("pour", none), ("boil", some ["water"])] :=
    methods.unique (OrderedMap.settles_ofList _)
  refine ⟨⟨⟨_, by decide +kernel⟩, ClassOutline.check_eq_ok_iff.mpr rfl, ?_⟩,
    directives.unique (OrderedMap.settles_ofList _), ?_⟩
  · rw [defined _ (ClassOutline.check_eq_ok_iff.mpr rfl), pours]
    rfl
  · have legible : (Manifest.decode .json kettleJson "kettle.json").isOk = true := by
      decide +kernel
    obtain ⟨u, inMethods, heldMethods⟩ :
        ∃ u ∈ (Json.read Decode.asked kettleJson).root.inClass "methods",
          (Value.table kettleMethods).HeldBy u := by
      decide +kernel
    obtain ⟨v, inDirectives, heldDirectives⟩ :
        ∃ v ∈ (Json.read Decode.asked kettleJson).root.inClass "directives",
          (Value.table kettleDirectives).HeldBy v := by
      decide +kernel
    cases decoded : Manifest.decode .json kettleJson "kettle.json" with
    | error e =>
      rw [decoded] at legible
      cases legible
    | ok m =>
      have first := (objects _ u heldMethods).2.2 kettleJson "kettle.json" m decoded
      have second := (objects _ v heldDirectives).2.2 kettleJson "kettle.json" m decoded
      exact ⟨m, rfl, (first.1 inMethods).1.unique (OrderedMap.settles_ofList _),
        (second.2 inDirectives).unique (OrderedMap.settles_ofList _)⟩

end RubyScaffold
