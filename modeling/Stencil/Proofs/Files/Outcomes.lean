import Stencil.Proofs.Context.Validation
import Stencil.Proofs.Yaml.Escapes
import Stencil.Proofs.Yaml.Meeting

/-!
# What comes of reading a user's input

* `Yaml.Blames`: a fault in the content of a document, in an escape or in what its root node meets;
* `Yaml.blames_of_load`, `Yaml.not_blames_of_load`: a document that is not loaded for its content
  has such a fault, and a document that is loaded has none;
* `ContextOutcome`, `readContext_eq_iff`: what may come of reading the context in a file;
* `input_outcomes`: what comes of reading a context or a template.
-/

namespace Stencil

namespace Yaml

/-- A fault in the content of a document: that of an escape, before there is a tree, or one that the
root of the tree meets. -/
inductive Blames (text : String) : ContentFault → Prop
  | escape {f : ContentFault} (unread : Node.ofText? text = .error (.content f))
      (code : f.IsEscape) : Blames text f
  | met {n : Node} {f : ContentFault} (read : Node.ofText? text = .ok (some n))
      (meets : n.Meets f) : Blames text f

theorem blames_of_load {text : String} {f : ContentFault}
    (h : (load .empty text).1 = .error (.content f)) : Blames text f := by
  obtain unread | ⟨n, read, meets⟩ := load_eq_content h
  · exact .escape unread (ofText?_onlyEscapes text f unread)
  · exact .met read meets

theorem not_blames_of_load {text : String} {v : Value} (h : (load .empty text).1 = .ok v)
    (f : ContentFault) : ¬ Blames text f := by
  intro blames
  obtain ⟨read, _⟩ | ⟨n, read, value⟩ := load_eq_ok h
  · cases blames with
    | escape unread _ => cases read.symm.trans unread
    | met root _ => cases read.symm.trans root
  · cases blames with
    | escape unread _ => cases read.symm.trans unread
    | met root meets =>
      cases read.symm.trans root
      exact Node.not_meets_of_value value f meets

end Yaml

/-! ## Contexts -/

/-- What may come of reading the context in a file. There is no file, or its bytes are no text, or
the text is no document; a document may have wrong content; nothing makes an empty context, and all
other documents have to be mappings; and of a mapping the first value that is not supported is to
blame. -/
inductive ContextOutcome (files : Files) (path : Path) :
    Except Error (List (String × Value)) → Prop
  | missing (absent : files path = none) :
      ContextOutcome files path (.error (.contextFile (.missing path.text)))
  | undecodable {bytes : List UInt8} {f : Text.Utf8Fault} (found : files path = some bytes)
      (undecodable : readText bytes = .error f) :
      ContextOutcome files path (.error (.contextFile (.unreadable path.text f.message)))
  | malformed {bytes : List UInt8} {text : String} {p : Yaml.Problem}
      (found : files path = some bytes) (decoded : readText bytes = .ok text)
      (document : (Yaml.load .empty text).1 = .error (.form p)) :
      ContextOutcome files path (.error (.contextFile (.unreadable path.text p.message)))
  | wrong {bytes : List UInt8} {text : String} {f : Yaml.ContentFault}
      (found : files path = some bytes) (decoded : readText bytes = .ok text)
      (document : (Yaml.load .empty text).1 = .error (.content f)) :
      ContextOutcome files path (.error (.content f))
  | nothing {bytes : List UInt8} {text : String} (found : files path = some bytes)
      (decoded : readText bytes = .ok text) (document : (Yaml.load .empty text).1 = .ok .null) :
      ContextOutcome files path (.ok [])
  | notMapping {bytes : List UInt8} {text : String} {v : Value} (found : files path = some bytes)
      (decoded : readText bytes = .ok text) (document : (Yaml.load .empty text).1 = .ok v)
      (something : v ≠ .null) (other : ∀ pairs, v ≠ .dict pairs) :
      ContextOutcome files path (.error (.contextFile (.notMapping path.text v.typeName)))
  | unsupported {bytes : List UInt8} {text : String} {before after : List (Value × Value)}
      {pair : Value × Value} (found : files path = some bytes) (decoded : readText bytes = .ok text)
      (document : (Yaml.load .empty text).1 = .ok (.dict (before ++ pair :: after)))
      (supported : ∀ p ∈ before, p.2.isSupported = true) (refused : pair.2.isSupported = false) :
      ContextOutcome files path (.error (.unsupported pair.1.label pair.2.typeName))
  | checked {bytes : List UInt8} {text : String} {pairs : List (Value × Value)}
      (found : files path = some bytes) (decoded : readText bytes = .ok text)
      (document : (Yaml.load .empty text).1 = .ok (.dict pairs))
      (supported : ∀ pair ∈ pairs, pair.2.isSupported = true) :
      ContextOutcome files path (.ok (Value.gathered pairs))

theorem contextOf_of_other (path : Path) {v : Value} (something : v ≠ .null)
    (other : ∀ pairs, v ≠ .dict pairs) :
    contextOf path v = .error (.contextFile (.notMapping path.text v.typeName)) := by
  unfold contextOf
  split
  · exact absurd rfl something
  · next pairs => exact absurd rfl (other pairs)
  · rfl

namespace ContextOutcome

variable {files : Files} {path : Path}

/-- The outcome for a dictionary is that of checking it. -/
theorem of_validate {bytes : List UInt8} {text : String} {pairs : List (Value × Value)}
    (found : files path = some bytes) (decoded : readText bytes = .ok text)
    (document : (Yaml.load .empty text).1 = .ok (.dict pairs)) :
    ContextOutcome files path (validate pairs) := by
  obtain ⟨supported, checked⟩ | ⟨before, pair, after, rfl, supported, refused, fails⟩ :=
    validate_cases pairs
  · exact checked ▸ .checked found decoded document supported
  · exact fails ▸ .unsupported found decoded document supported refused

theorem of_document {bytes : List UInt8} {text : String} (found : files path = some bytes)
    (decoded : readText bytes = .ok text) :
    ContextOutcome files path (contextIn path (Yaml.load .empty text).1) := by
  cases document : (Yaml.load .empty text).1 with
  | error fault =>
    cases fault with
    | form p => exact .malformed found decoded document
    | content f => exact .wrong found decoded document
  | ok v =>
    by_cases nothing : v = .null
    · subst nothing
      exact .nothing found decoded document
    · by_cases mapping : ∃ pairs, v = .dict pairs
      · obtain ⟨pairs, rfl⟩ := mapping
        exact of_validate found decoded document
      · have other : ∀ pairs, v ≠ .dict pairs := fun pairs same => mapping ⟨pairs, same⟩
        rw [contextIn, contextOf_of_other path nothing other]
        exact .notMapping found decoded document nothing other

end ContextOutcome

theorem readContext_of_missing {files : Files} {path : Path} (absent : files path = none) :
    readContext files path = .error (.contextFile (.missing path.text)) := by
  simp only [readContext, loadContext, absent]
  rfl

theorem readContext_of_undecodable {files : Files} {path : Path} {bytes : List UInt8}
    {f : Text.Utf8Fault} (found : files path = some bytes)
    (undecodable : readText bytes = .error f) :
    readContext files path = .error (.contextFile (.unreadable path.text f.message)) := by
  simp only [readContext, loadContext, found, undecodable]
  rfl

/-- Reading a context has one outcome. -/
theorem readContext_eq_iff {files : Files} {path : Path}
    {r : Except Error (List (String × Value))} :
    readContext files path = r ↔ ContextOutcome files path r := by
  constructor
  · rintro rfl
    cases found : files path with
    | none =>
      rw [readContext_of_missing found]
      exact .missing found
    | some bytes =>
      cases decoded : readText bytes with
      | error f =>
        rw [readContext_of_undecodable found decoded]
        exact .undecodable found decoded
      | ok text =>
        rw [readContext_of_text found decoded]
        exact .of_document found decoded
  · intro outcome
    cases outcome with
    | missing absent => exact readContext_of_missing absent
    | undecodable found undecodable => exact readContext_of_undecodable found undecodable
    | malformed found decoded document | wrong found decoded document
    | nothing found decoded document =>
      rw [readContext_of_text found decoded, document]
      rfl
    | notMapping found decoded document something other =>
      rw [readContext_of_text found decoded, document]
      exact contextOf_of_other path something other
    | unsupported found decoded document supported refused =>
      rw [readContext_of_text found decoded, document]
      exact validate_of_unsupported supported refused
    | checked found decoded document supported =>
      rw [readContext_of_text found decoded, document]
      exact validate_of_supported supported

/-! ## All input -/

/-- **What comes of a user's input.** Reading a context has one outcome. Where it succeeds, the
names are distinct and the values are supported. Where it fails, the error is one of the user's
input, or the content of the document is to blame; and where the content is to blame, it fails.
Reading a template from a file fails with an error of the template file. Reading one from the
standard input fails where this is no text, and then with an error that is none of a user's
input. -/
theorem input_outcomes (files : Files) (input : List UInt8) :
    (∀ path r, readContext files path = r ↔ ContextOutcome files path r) ∧
    (∀ path pairs, readContext files path = .ok pairs →
      (pairs.map Prod.fst).Nodup ∧ ∀ pair ∈ pairs, pair.2.isSupported = true) ∧
    (∀ path e, readContext files path = .error e → e.isUser = true ∨
      ∃ bytes text f, files path = some bytes ∧ readText bytes = .ok text ∧ Yaml.Blames text f ∧
        e = .content f) ∧
    (∀ path bytes text f, files path = some bytes → readText bytes = .ok text →
      Yaml.Blames text f → ∃ e, readContext files path = .error e) ∧
    (∀ source e, source ≠ "-" → readTemplate files input source = .error e →
      ∃ cause, e = .templateFile cause) ∧
    ∀ e, readTemplate files input "-" = .error e ↔
      ∃ f, readText input = .error f ∧ e = .undecodable f := by
  refine ⟨fun path r => readContext_eq_iff, ?_, ?_, ?_, ?_, ?_⟩
  · intro path pairs read
    cases readContext_eq_iff.1 read with
    | nothing => exact ⟨List.nodup_nil, fun pair none => absurd none List.not_mem_nil⟩
    | checked found decoded document supported =>
      exact ⟨Value.nodup_keys_gathered _, validate_supported (validate_of_supported supported)⟩
  · intro path e failed
    cases readContext_eq_iff.1 failed with
    | missing | undecodable | malformed | notMapping | unsupported => exact .inl rfl
    | wrong found decoded document =>
      exact .inr ⟨_, _, _, found, decoded, Yaml.blames_of_load document, rfl⟩
  · intro path bytes text f found decoded blames
    cases read : readContext files path with
    | error e => exact ⟨e, rfl⟩
    | ok pairs =>
      rw [readContext_of_text found decoded] at read
      cases document : (Yaml.load .empty text).1 with
      | ok v => exact absurd blames (Yaml.not_blames_of_load document f)
      | error fault =>
        rw [document] at read
        cases fault <;> cases read
  · intro source e file failed
    rw [readTemplate, if_neg file] at failed
    dsimp only at failed
    split at failed
    · exact ⟨_, (Except.error.inj failed).symm⟩
    · obtain ⟨f, _, same⟩ := mapError_eq_error_iff.1 failed
      exact ⟨_, same.symm⟩
  · intro e
    rw [readTemplate, if_pos rfl, mapError_eq_error_iff]
    simp only [eq_comm]

/-- A day in a month that there is not has the form of a day, and so its content is to blame. -/
theorem readContext_of_month {files : Files} {path : Path}
    (found : files path = some "d: 2020-13-01\n".toUTF8.toList) :
    readContext files path = .error (.content (.calendar .month)) := by
  have decoded : readText "d: 2020-13-01\n".toUTF8.toList = .ok "d: 2020-13-01\n" := by
    decide +kernel
  have fault : (fun _ => ()) <$> (Yaml.load .empty "d: 2020-13-01\n").1 =
      .error (.content (.calendar .month)) := by
    decide +kernel
  rw [readContext_of_text found decoded, map_eq_error_iff.1 fault]
  rfl

/-- The file with that month has content to blame. -/
theorem input_outcomes_of_month :
    let files : Files := fun _ => some "d: 2020-13-01\n".toUTF8.toList
    ∃ bytes text f, files (.ofText "c.yaml") = some bytes ∧ readText bytes = .ok text ∧
      Yaml.Blames text f := by
  intro files
  obtain ⟨_, _, failing, _⟩ := input_outcomes files []
  obtain user | ⟨bytes, text, f, found, decoded, blames, _⟩ :=
    failing (.ofText "c.yaml") _ (readContext_of_month rfl)
  · cases user
  · exact ⟨bytes, text, f, found, decoded, blames⟩

/-- Neither the error for that month nor the one for a byte that begins no character is one of a
user's input. -/
theorem input_outcomes_broken :
    let files : Files := fun _ => some "d: 2020-13-01\n".toUTF8.toList
    (∃ e, readContext files (.ofText "c.yaml") = .error e ∧ e.isUser = false) ∧
      ∃ e, readTemplate files [0xff] "-" = .error e ∧ e.isUser = false := by
  intro files
  have undecodable : readText [0xff] = .error ⟨.start, 0, 1, 0xff⟩ := by decide +kernel
  refine ⟨⟨_, readContext_of_month rfl, rfl⟩, .undecodable ⟨.start, 0, 1, 0xff⟩, ?_, rfl⟩
  rw [readTemplate, if_pos rfl, undecodable]
  rfl

end Stencil
