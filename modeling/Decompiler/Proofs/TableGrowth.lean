/- # Decompiler.Proofs.TableGrowth — growing the symbol table never changes a settled decode

A decoder asks its table one index at a time, so a table that resolves more can only change
what happens behind an index that the smaller one did not resolve. A run that met no such
index ends the same under both, with the same cursor, whether it answered or failed; a run
that did is at least as far on under the larger table. `Preserved` has this for every
decoder and for whole attribute bodies. A pool after further calls is such a larger table
(`Pool.extends_after`), whether the calls were accepted or not.
-/
import Decompiler.ClassFile.Attribute
import Decompiler.Proofs.PoolHistory
import Decompiler.Proofs.Tracking

namespace Decompiler.ClassFile

set_option autoImplicit false

open Decoder (cursorOf Tracks)

theorem Cursor.Reaches.position_le {start next : Cursor} (reaches : start.Reaches next) :
    start.position ≤ next.position := by
  have total := reaches.total
  have fewer := reaches.remaining_le
  omega

variable {α : Type}

/-- The first run is settled by the table it had, or stops no further on than the other. -/
structure Kept (result other : EStateM.Result DecodeError Cursor α) : Prop where
  settled : (∀ index next, result ≠ .error (.unresolvedIndex index) next) → other = result
  onward : ∀ index next, result = .error (.unresolvedIndex index) next →
    next.position ≤ (cursorOf other).position

theorem Decoder.Tracks.kept {symbols : SymbolTable} {decoder other : Decoder α}
    (tracks : Tracks symbols [] decoder other) (start : Cursor) :
    Kept (decoder start) (other start) := by
  have tracked := tracks start
  generalize decoder start = result at tracked ⊢
  generalize other start = otherResult at tracked ⊢
  cases tracked with
  | answered => exact ⟨fun _ => rfl, nofun⟩
  | @refused cause read next reads seen =>
      refine ⟨fun _ => rfl, ?_⟩
      rintro index _ ⟨⟩
      exact Nat.le_refl _
  | starved => exact ⟨fun _ => rfl, nofun⟩
  | @unresolved index read next _ reads seen further =>
      refine ⟨fun settled => absurd rfl (settled index next), ?_⟩
      rintro _ _ ⟨⟩
      exact further.position_le

/-- The same of what is parsed from a whole body, beside the runs over its bytes: a parse that does not
hang on an index without entry stays as it is and its run stops at the same place. -/
structure BodyKept (parsed other : Except DecodeError α)
    (run otherRun : EStateM.Result DecodeError Cursor α) : Prop where
  settled : (∀ index, parsed ≠ .error (.unresolvedIndex index)) →
    other = parsed ∧ cursorOf otherRun = cursorOf run
  onward : ∀ index, parsed = .error (.unresolvedIndex index) →
    (cursorOf run).position ≤ (cursorOf otherRun).position

theorem Attribute.decodeWhole_eq_unresolved {decoder : Decoder α} {body : List UInt8} {index : UInt16}
    (failed : decodeWhole decoder body = .error (.unresolvedIndex index)) :
    ∃ next, decoder (Cursor.start body) = .error (.unresolvedIndex index) next := by
  unfold decodeWhole at failed
  split at failed
  · split at failed <;> cases failed
  · next cause next run =>
      cases failed
      exact ⟨next, run⟩

theorem Kept.body {decoder other : Decoder α} {body : List UInt8}
    (kept : Kept (decoder (Cursor.start body)) (other (Cursor.start body))) :
    BodyKept (Attribute.decodeWhole decoder body) (Attribute.decodeWhole other body)
      (decoder (Cursor.start body)) (other (Cursor.start body)) where
  settled settled := by
    have same : other (Cursor.start body) = decoder (Cursor.start body) := by
      refine kept.settled fun index next failed => settled index ?_
      rw [Attribute.decodeWhole, failed]
    rw [Attribute.decodeWhole, Attribute.decodeWhole, same]
    exact ⟨rfl, rfl⟩
  onward index failed := by
    obtain ⟨next, run⟩ := Attribute.decodeWhole_eq_unresolved failed
    have further := kept.onward index next run
    rwa [run]

/-- What was decoded under the first table is decoded alike under the other, from every place and for
every whole body. -/
structure Preserved (symbols larger : SymbolTable) : Prop where
  element : ∀ start, Kept (Decoder.element symbols start) (Decoder.element larger start)
  annotationTree : ∀ start,
    Kept (Decoder.annotationTree symbols start) (Decoder.annotationTree larger start)
  annotations : ∀ start,
    Kept (Decoder.annotations symbols start) (Decoder.annotations larger start)
  typeAnnotationTree : ∀ start,
    Kept (Decoder.typeAnnotationTree symbols start) (Decoder.typeAnnotationTree larger start)
  typeAnnotations : ∀ start,
    Kept (Decoder.typeAnnotations symbols start) (Decoder.typeAnnotations larger start)
  annotationsBody : ∀ body,
    BodyKept (Attribute.annotations symbols body) (Attribute.annotations larger body)
      (Decoder.annotations symbols (Cursor.start body))
      (Decoder.annotations larger (Cursor.start body))
  typeAnnotationsBody : ∀ body,
    BodyKept (Attribute.typeAnnotations symbols body) (Attribute.typeAnnotations larger body)
      (Decoder.typeAnnotations symbols (Cursor.start body))
      (Decoder.typeAnnotations larger (Cursor.start body))

theorem SymbolTable.Extends.preserved {symbols larger : SymbolTable}
    (grown : larger.Extends symbols) : Preserved symbols larger where
  element := (Decoder.tracks_element grown).kept
  annotationTree := (Decoder.tracks_annotationTree grown).kept
  annotations := (Decoder.tracks_annotations grown).kept
  typeAnnotationTree := (Decoder.tracks_typeAnnotationTree grown).kept
  typeAnnotations := (Decoder.tracks_typeAnnotations grown).kept
  annotationsBody _ := ((Decoder.tracks_annotations grown).kept _).body
  typeAnnotationsBody _ := ((Decoder.tracks_typeAnnotations grown).kept _).body

/-- **Growing the symbol table never changes a settled decode**, be it any larger table or a pool after
any further calls. -/
theorem preserved_under_growth :
    (∀ symbols larger : SymbolTable, larger.Extends symbols → Preserved symbols larger) ∧
      ∀ (pool : Pool) (calls : List Pool.Call),
        Preserved pool.symbols (pool.after calls).symbols :=
  ⟨fun _ _ grown => grown.preserved, fun pool calls => (pool.extends_after calls).preserved⟩

/-- A pair whose name comes into the pool later: the first run stops behind its index, and the run
after the calls is past that place. An annotation without pairs is settled before them. -/
theorem preserved_after_calls :
    let pool := Pool.empty.after [.pushText "LA;"]
    let grown := pool.after [.pushText "n", .push (.integer 7)]
    let paired := Cursor.start [0, 1, 0, 1, 0, 2, 73, 0, 3]
    let marker := Cursor.start [0, 1, 0, 0, 5]
    grown.symbols.Extends pool.symbols ∧
      Decoder.annotationTree pool.symbols paired = .error (.unresolvedIndex 2) ⟨6, [73, 0, 3]⟩ ∧
      6 ≤ (cursorOf (Decoder.annotationTree grown.symbols paired)).position ∧
      Decoder.annotationTree pool.symbols marker = .ok ⟨"A", []⟩ ⟨4, [5]⟩ ∧
      Decoder.annotationTree grown.symbols marker = .ok ⟨"A", []⟩ ⟨4, [5]⟩ := by
  intro pool grown paired marker
  have extends_pool : grown.symbols.Extends pool.symbols := pool.extends_after _
  have preserved := preserved_under_growth.1 pool.symbols grown.symbols extends_pool
  have stopped : Decoder.annotationTree pool.symbols paired =
      .error (.unresolvedIndex 2) ⟨6, [73, 0, 3]⟩ := by with_unfolding_all rfl
  have answered : Decoder.annotationTree pool.symbols marker = .ok ⟨"A", []⟩ ⟨4, [5]⟩ := by
    with_unfolding_all rfl
  have same : Decoder.annotationTree grown.symbols marker =
      Decoder.annotationTree pool.symbols marker := by
    refine (preserved.annotationTree marker).settled fun index next failed => ?_
    rw [answered] at failed
    cases failed
  exact ⟨extends_pool, stopped, (preserved.annotationTree paired).onward 2 _ stopped, answered,
    same.trans answered⟩

end Decompiler.ClassFile
