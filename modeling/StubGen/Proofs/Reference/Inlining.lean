import Mathlib.Data.List.Nodup
import StubGen.Proofs.Reference.Agreement
import StubGen.Proofs.Schema.Origins

/-!
# References inside a definition that is put in place

A definition that takes a marker's place brings its own pointers along, as they are. In the
document they stand in from then on they mean what that document keeps under their keys, and its
root. So the class that such a pointer is named by is made from that, `inlined_denotes_host`, and
from what the definition itself keeps under the key only where the two agree. A key that both
documents have leads to the outer one's schema: `inlined_captured`.
-/

namespace StubGen.SchemaIndex

open Schema Result

variable {index : SchemaIndex} {value document definition : Json} {members : Members}
  {path root : String} {d maxDepth : Nat}

/-- What a value that is resolved visits is resolved to what it unfolds to. -/
theorem resolve_of_visits {seen part : Json} (hresolve : index.resolve value = .ok document)
    (hv : Visits index value d seen) (hu : Unfolds index seen part) :
    index.resolve seen = .ok part := by
  refine resolveAt_of_unfolds (fun path hm => absurd hm (by simp)) hu ?_
  intro e deeper hdeeper
  have := lt_of_visits (hv.trans hdeeper) hresolve
  omega

/-- The definition of a marker that is met on the way stands resolved in the resolved value, and is
all of it if the marker was. -/
theorem resolve_definition (hresolve : index.resolve value = .ok document)
    (hv : Visits index value d (.obj members)) (hr : Refers members path)
    (hd : index.get? path = some definition) :
    ∃ inlined, index.resolve definition = .ok inlined ∧ Json.Within inlined document ∧
      (d = 0 → inlined = document) := by
  have henters : Enters index (.obj members) definition := .target hr hd
  have hvisit : Visits index value (d + 1) definition := hv.trans (.next henters .here)
  obtain ⟨inlined, hu, hw⟩ := unfolds_of_visits (unfolds_of_resolveAt hresolve) hvisit
  have hinlined := resolve_of_visits hresolve hvisit hu
  refine ⟨inlined, hinlined, hw, fun hzero => ?_⟩
  subst hzero
  cases hv
  -- the marker and its definition unfold to the same
  cases unfolds_of_resolveAt hresolve with
  | scalar _ ho => exact absurd ho (by simp [Json.obj?])
  | obj hmarker _ => exact absurd hmarker hr.get?_ne_none
  | known hr' hd' hu' =>
      obtain rfl := hr.unique hr'
      obtain rfl := Option.some.inj (hd.symm.trans hd')
      exact Except.ok.inj (hinlined.symm.trans (resolve_of_visits hresolve hvisit hu'))
  | unknown hr' hd' =>
      obtain rfl := hr.unique hr'
      exact absurd (hd.symm.trans hd') (by simp)

/-- **A pointer in an inlined definition denotes what the whole document has there.** When a value
that comes to a marker has been resolved and a module has been generated from it, the definition
of the marker stands resolved in the document. Wherever in it a schema with a pointer has been
typed, it was typed as the one name of a block that is made from what the document keeps under the
pointer's key, or from its root. That is also what the definition itself keeps there if the marker
was the whole value, or if the two agree. -/
theorem inlined_denotes_host {source : String} (hv : Visits index value d (.obj members))
    (hr : Refers members path) (hd : index.get? path = some definition)
    (hresolve : index.resolve value = .ok document)
    (hgenerate : generate maxDepth document root = .ok source) :
    ∃ inlined final, index.resolve definition = .ok inlined ∧ Json.Within inlined document ∧
      finalScope ⟨document, root, maxDepth⟩ = .ok final ∧
      source = Declaration.renderModule final.declarations ∧
      ∀ schema reference type, schema.getStr? "$ref" = some reference →
        TypedAs ⟨document, root, maxDepth⟩ final schema type →
        ∃ block ∈ final.declarations, type = .ref block.name ∧
          (∀ other ∈ final.declarations, other.name = block.name → other = block) ∧
          ∃ target, denoted document root reference = .ok target ∧
            MadeFrom ⟨document, root, maxDepth⟩ final target block ∧
            (d = 0 ∨ denoted inlined root reference = denoted document root reference →
              denoted inlined root reference = .ok target) := by
  obtain ⟨inlined, hinlined, hw, hwhole⟩ := resolve_definition hresolve hv hr hd
  obtain ⟨blocks, hblocks, hsource⟩ := map_eq_ok_iff.mp hgenerate
  have hdistinct := (closed_declarations hblocks).distinct
  rw [declarations_eq] at hblocks
  obtain ⟨final, hfinal, rfl⟩ := map_eq_ok_iff.mp hblocks
  refine ⟨inlined, final, hinlined, hw, hfinal, hsource.symm, ?_⟩
  rintro schema reference type href ⟨room, depth, hint, before, after, htype, hgrows⟩
  obtain ⟨name, rfl, hname⟩ := nameOf?_of_typeAt htype href
  obtain ⟨target, block, htarget, rfl, hmade⟩ :=
    origin_of_named hfinal (nameOf?_mono hgrows hname)
  -- names are distinct, so the name of the type is that of one block
  refine ⟨block, hmade.mem, rfl, fun other hm heq => ?_, target, htarget, hmade, ?_⟩
  · exact List.inj_on_of_nodup_map hdistinct hm hmade.mem heq
  · rintro (hzero | hagree)
    · rw [hwhole hzero]
      exact htarget
    · rw [hagree]
      exact htarget

/-- A pet with a kind of its own. -/
def kindedPet : Json :=
  .obj [("properties", .obj [("kind", .obj [("$ref", .str "#/definitions/Kind")])]),
    ("definitions", .obj [("Kind", .obj [("type", .str "string")])])]

/-- A shop with a pet in it and with another kind. -/
def kindedShop : Json :=
  .obj [("properties", .obj [("pet", markerOf "zoo.Pet")]),
    ("definitions", .obj [("Kind", .obj [("type", .str "integer")])])]

/-- The shop with the pet inlined. -/
def kindedShopInlined : Json :=
  .obj [("properties", .obj [("pet", kindedPet)]),
    ("definitions", .obj [("Kind", .obj [("type", .str "integer")])])]

theorem resolve_kindedShop :
    (⟨[("zoo.Pet", kindedPet)]⟩ : SchemaIndex).resolve kindedShop = .ok kindedShopInlined := rfl

/-- The pet in the shop is a marker two steps away. -/
theorem inlined_denotes_host_shop :
    (⟨[("zoo.Pet", kindedPet)]⟩ : SchemaIndex).get? "zoo.Pet" = some kindedPet ∧
    (⟨[("zoo.Pet", kindedPet)]⟩ : SchemaIndex).resolve kindedShop = .ok kindedShopInlined ∧
    ∃ source, generate 48 kindedShopInlined "Shop" = .ok source ∧
    ∃ inlined final, (⟨[("zoo.Pet", kindedPet)]⟩ : SchemaIndex).resolve kindedPet = .ok inlined ∧
      Json.Within inlined kindedShopInlined ∧
      finalScope ⟨kindedShopInlined, "Shop", 48⟩ = .ok final ∧
      source = Declaration.renderModule final.declarations ∧
      ∀ schema reference type, schema.getStr? "$ref" = some reference →
        TypedAs ⟨kindedShopInlined, "Shop", 48⟩ final schema type →
        ∃ block ∈ final.declarations, type = .ref block.name ∧
          (∀ other ∈ final.declarations, other.name = block.name → other = block) ∧
          ∃ target, denoted kindedShopInlined "Shop" reference = .ok target ∧
            MadeFrom ⟨kindedShopInlined, "Shop", 48⟩ final target block ∧
            (2 = 0 ∨
              denoted inlined "Shop" reference = denoted kindedShopInlined "Shop" reference →
              denoted inlined "Shop" reference = .ok target) := by
  refine ⟨rfl, resolve_kindedShop, ?_⟩
  have hproperties : Enters ⟨[("zoo.Pet", kindedPet)]⟩ kindedShop
      (.obj [("pet", markerOf "zoo.Pet")]) := .member rfl List.mem_cons_self
  have hpet : Enters ⟨[("zoo.Pet", kindedPet)]⟩ (.obj [("pet", markerOf "zoo.Pet")])
      (markerOf "zoo.Pet") := .member rfl List.mem_cons_self
  have hok : (generate 48 kindedShopInlined "Shop").toBool = true := by decide +kernel
  match h : generate 48 kindedShopInlined "Shop" with
  | .ok source =>
      exact ⟨source, rfl, inlined_denotes_host (.next hproperties (.next hpet .here))
        ⟨_, rfl, rfl⟩ rfl resolve_kindedShop h⟩
  | .error _ =>
      rw [h] at hok
      exact Bool.noConfusion hok

/-- What declaring a schema for texts comes to. -/
theorem render_of_madeFrom_text {document : Document} {final : Scope} {block : Declaration}
    (h : MadeFrom document final (.obj [("type", .str "string")]) block) :
    block.render = block.name ++ " = str" := by
  match block with
  | .record name doc fields =>
      obtain ⟨members, properties, hflat, hp, -⟩ := h.record
      obtain rfl := Json.obj.inj (Except.ok.inj hflat)
      exact nomatch hp
  | .alias name type =>
      obtain ⟨flat, hflat, room, depth, hint, before, after, htype, -⟩ := h.alias
      obtain rfl := Except.ok.inj hflat
      cases room with
      | zero => exact nomatch htype
      | succ room =>
          rw [typeAt_succ] at htype
          obtain ⟨rfl, -⟩ := Prod.mk.inj (Except.ok.inj htype)
          change name ++ " = " ++ "str" = name ++ " = str"
          rw [String.append_assoc]
          rfl

/-- **A key that both documents have leads to the outer one's definition.** The pet's kind is a
text in the pet's own definition. In the module for the shop the pointer to it is named by a block
that is not made from that. -/
theorem inlined_captured :
    ∃ final block, finalScope ⟨kindedShopInlined, "Shop", 48⟩ = .ok final ∧
      target kindedPet "#/definitions/Kind" = .ok (.obj [("type", .str "string")]) ∧
      TypedAs ⟨kindedShopInlined, "Shop", 48⟩ final (.obj [("$ref", .str "#/definitions/Kind")])
        (.ref block.name) ∧
      block ∈ final.declarations ∧
      ¬ MadeFrom ⟨kindedShopInlined, "Shop", 48⟩ final (.obj [("type", .str "string")]) block := by
  let result := finalScope ⟨kindedShopInlined, "Shop", 48⟩
  have hresult : (result.toOption.map fun final =>
      (final.pointers, (final.declarations.map fun d => (d.name, d.render)).head?)) =
      some ([("#/definitions/Kind", "Kind")], some ("Kind", "Kind = int")) := by decide +kernel
  obtain ⟨final, hf, heq⟩ := Option.map_eq_some_iff.mp hresult
  obtain ⟨hpointers, hhead⟩ := Prod.mk.inj heq
  obtain ⟨block, hblock, hrender⟩ : ∃ block ∈ final.declarations,
      (block.name, block.render) = ("Kind", "Kind = int") := by
    obtain ⟨block, hm, hblock⟩ := List.mem_map.mp (List.mem_of_head? hhead)
    exact ⟨block, hm, hblock⟩
  obtain ⟨hname, hrender⟩ := Prod.mk.inj hrender
  refine ⟨final, block, eq_ok_of_toOption hf, rfl, ?_, hblock, fun hmade => ?_⟩
  · -- the name is there, so typing the pointer once more finds it
    refine ⟨1, 0, "", final, final, ?_, .refl final⟩
    have hpointer : (Json.obj [("$ref", .str "#/definitions/Kind")]).getStr? "$ref" =
        some "#/definitions/Kind" := rfl
    rw [typeAt_succ, schemaType_pointer hpointer, run_pointerType, if_neg (by decide), hpointers,
      hname]
    rfl
  · rw [render_of_madeFrom_text hmade, hname] at hrender
    exact absurd hrender (by decide)

end StubGen.SchemaIndex
