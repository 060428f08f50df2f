import Stencil.Proofs.Markup.Seam
import Stencil.Proofs.Template.Paths
import Stencil.Proofs.Template.Rendering
import Stencil.Proofs.Template.Search

/-!
# Blocks and their bodies

* `Encloses`: the text between the markers of a block;
* `tokenize_enclosed`: that text is read to its end, and has the lexemes inside the block;
* `compile_enclosed`: that text compiles to the entries of the block;
* `compile_body`: a block is its body compiled on its own, and renders as that body does.
-/

namespace Stencil

/-! ## The text of a body -/

/-- The text is what stands in the source between the marker of a start and that of a stop. -/
def Encloses (source : String) (start stop : Token) (body : String) : Prop :=
  ∃ before opener closer after : List Char,
    source.toList = before ++ opener ++ body.toList ++ closer ++ after ∧
      start.lexeme.Marks opener ∧ before.length = start.position.offset ∧
        stop.lexeme.Marks closer ∧
          (before ++ opener ++ body.toList).length = stop.position.offset

theorem Encloses.unique {source : String} {start stop : Token} {body other : String}
    (h : Encloses source start stop body) (h' : Encloses source start stop other) :
    body = other := by
  obtain ⟨before, opener, closer, after, whole, opens, begins, _, ends⟩ := h
  obtain ⟨before', opener', closer', after', whole', opens', begins', _, ends'⟩ := h'
  rw [whole] at whole'
  simp only [List.append_assoc] at whole'
  obtain ⟨rfl, markers⟩ := List.append_inj whole' (begins.trans begins'.symm)
  have first := Piece.marker?_of_marks opens (body.toList ++ (closer ++ after))
  have second := Piece.marker?_of_marks opens' (other.toList ++ (closer' ++ after'))
  rw [markers, second] at first
  obtain ⟨_, rfl, bodies⟩ := Piece.mk.injEq .. ▸ Option.some.inj first
  have length := ends.trans ends'.symm
  simp only [List.length_append] at length
  obtain ⟨same, _⟩ := List.append_inj bodies (by omega)
  exact (String.toList_inj.1 same).symm

/-- The text between two markers is read to its end, and has the lexemes between them for its
own. -/
theorem tokenize_enclosed {source : String} {before inside rest : List Token} {start stop : Token}
    (split : (tokenize source).tokens = before ++ start :: (inside ++ stop :: rest))
    (starts : ∀ run, start.lexeme ≠ .text run) (stops : ∀ run, stop.lexeme ≠ .text run) :
    ∃ body, Encloses source start stop body ∧ (tokenize body).fault? = none ∧
      (tokenize body).tokens.map Token.lexeme = inside.map Token.lexeme := by
  obtain ⟨pieces, left, segmentation⟩ := exists_segmentation source.toList
  rw [(tokenize_of_segmentation segmentation).1] at split
  obtain ⟨front, _, rfl, _, atStart⟩ := Piece.tokensFrom_eq_append split
  obtain ⟨opener, _, rfl, rfl, atBody⟩ := Piece.tokensFrom_eq_cons atStart
  obtain ⟨inner, _, rfl, between, atStop⟩ := Piece.tokensFrom_eq_append atBody
  obtain ⟨closer, behind, rfl, rfl, _⟩ := Piece.tokensFrom_eq_cons atStop
  -- The source is cut behind the tokens in front of the start, and what is left of it behind the
  -- tokens inside.
  obtain ⟨text, _, outside, whole, segmentationFront, rfl, fromStart⟩ := segmentation.cut
  obtain ⟨rfl, segmentOpener, fromBody⟩ := fromStart.of_cons
  obtain ⟨body, _, own, bodyFirst, segmentationBody, rfl, fromStop⟩ := fromBody.cut
  obtain ⟨rfl, segmentCloser, _⟩ := fromStop.of_cons
  have spelledFront : outside.flatMap Piece.spelling = text := by
    simpa using segmentationFront.append_left
  have spelledBody : own.flatMap Piece.spelling = body := by
    simpa using segmentationBody.append_left
  refine ⟨String.ofList body, ?_, ?_⟩
  · refine ⟨text, opener.spelling, closer.spelling, closer.rest, ?_, segmentOpener.marks starts, ?_,
      segmentCloser.marks stops, ?_⟩
    · simp [whole, bodyFirst]
    · simp [spelledFront, Position.start]
    · simp [spelledFront, spelledBody, Position.start]
      omega
  · have segmentationText : Segmentation (String.ofList body).toList own [] := by
      rwa [String.toList_ofList]
    obtain ⟨tokensText, endsText⟩ := tokenize_of_segmentation segmentationText
    refine ⟨endsText.of_nil rfl, ?_⟩
    rw [tokensText, ← between, Piece.map_lexeme_tokensFrom, Piece.map_lexeme_tokensFrom,
      List.map_map, Piece.lexeme_comp_followedBy]

/-! ## Blocks compiled on their own -/

/-- The body of a block compiles to the entries of the block. -/
theorem compile_enclosed {source : String} {t node : Template} {before inside rest : List Token}
    {start stop : Token} (compiled : (compile source).result = .ok t)
    (split : (tokenize source).tokens = before ++ start :: (inside ++ stop :: rest))
    (block : Part.ReadAs (.block start inside stop) (.block node.name node.entries)) :
    (∃ body, Encloses source start stop body) ∧
      ∀ body, Encloses source start stop body →
        (compile body).result = .ok ⟨rootName, node.entries⟩ := by
  obtain ⟨_, _, same, unreserved⟩ := compile_eq_ok_iff.1 compiled
  cases block with | block starts stops read => ?_
  obtain ⟨body, encloses, whole, lexemes⟩ :=
    tokenize_enclosed split (by simp [starts]) (by simp [stops])
  refine ⟨⟨body, encloses⟩, ?_⟩
  intro other enclosed
  obtain rfl := encloses.unique enclosed
  refine compile_eq_ok_iff.2 ⟨rfl, whole, lexemes.trans read, ?_⟩
  intro reserved
  apply unreserved
  rw [← same, split]
  rw [← read] at reserved
  simp [reserved]

/-- **A block is its body compiled on its own.** In a source that compiles, every start has its
stop, and the node of the block is the one at its path. The text between the two markers compiles,
and the entries are those of the node. So the block that a search finds renders as that text does
when it is compiled alone. -/
theorem compile_body {source : String} {t : Template} (compiled : (compile source).result = .ok t) :
    (∀ before start after name, (tokenize source).tokens = before ++ start :: after →
      start.lexeme = .blockStart name →
        ∃ e node, ending? 0 after = some e ∧ t.at? (blockPath before) = some node ∧
          node.name = name ∧ (∃ body, Encloses source start e.stop body) ∧
            ∀ body, Encloses source start e.stop body →
              (compile body).result = .ok ⟨rootName, node.entries⟩) ∧
    ∀ name site, name ≠ rootName → t.search name = some site →
      ∃ before start after e body alone, (tokenize source).tokens = before ++ start :: after ∧
        start.lexeme = .blockStart name ∧ blockPath before = site.path ∧
          ending? 0 after = some e ∧ Encloses source start e.stop body ∧
            (compile body).result = .ok alone ∧
              ∀ context : Context, (∀ words, context ≠ .text words) →
                t.renderWith (.text name) context = alone.renderWith context .null := by
  obtain ⟨root, _, same, _⟩ := compile_eq_ok_iff.1 compiled
  constructor
  · intro before start after name split kind
    rw [split] at same
    obtain ⟨i, path, node, inside, stop, rest, rfl, block, reached, place⟩ :=
      node_of_start same kind t.name 0 []
    obtain ⟨between, alone⟩ := compile_enclosed compiled split block
    cases block with | block starts stops read => ?_
    refine ⟨⟨inside, stop, rest⟩, node, ending?_of_readAs read stops rest, ?_, ?_, between, alone⟩
    · rw [blockPath, place]
      simpa using reached
    · exact Lexeme.blockStart.inj (starts.symm.trans kind)
  · intro name site unreserved found
    obtain ⟨reached, rfl⟩ := search_found found
    cases path : site.path with
    | nil =>
      rw [path] at reached
      cases reached
      exact absurd root unreserved
    | cons i path' =>
      rw [path] at reached
      obtain ⟨before, start, inside, stop, rest, split, block, place⟩ :=
        start_of_node same t.name reached 0 []
      obtain ⟨⟨body, encloses⟩, alone⟩ := compile_enclosed compiled split block
      cases block with | block starts stops read => ?_
      refine ⟨before, start, _, ⟨inside, stop, rest⟩, body, _, split, starts, ?_,
        ending?_of_readAs read stops rest, encloses, alone body encloses, ?_⟩
      · rw [blockPath, place]
        simp
      · intro context unnamed
        rw [Template.renderWith_null unnamed, Template.render]
        simp only [Template.renderWith, Template.renderBlock, Template.find, found]
        rfl

/-- A block inside another one, which a search from the root finds. -/
theorem compile_body_of_nested :
    (∃ e body,
      ending? 0 [⟨.expression "y", ⟨15, 1, 16⟩⟩, ⟨.blockStop, ⟨20, 1, 21⟩⟩,
        ⟨.blockStop, ⟨26, 1, 27⟩⟩] = some e ∧
      Encloses ("\x7b\x7bt b\x7d\x7dx" ++
          "\x7b\x7bt c\x7d\x7d\x7b\x7by\x7d\x7d\x7b\x7b/t\x7d\x7d\x7b\x7b/t\x7d\x7d")
        ⟨.blockStart "c", ⟨8, 1, 9⟩⟩ e.stop body ∧
      (compile body).result = .ok ⟨rootName, [.expression "y"]⟩) ∧
    ∃ alone : Template, ∀ context : Context, (∀ words, context ≠ .text words) →
      Template.renderWith ⟨rootName, [.block "b" [.text "x", .block "c" [.expression "y"]]]⟩
        (.text "c") context = alone.renderWith context .null := by
  have compiled : (compile ("\x7b\x7bt b\x7d\x7dx" ++
      "\x7b\x7bt c\x7d\x7d\x7b\x7by\x7d\x7d\x7b\x7b/t\x7d\x7d\x7b\x7b/t\x7d\x7d")).result =
      .ok ⟨rootName, [.block "b" [.text "x", .block "c" [.expression "y"]]]⟩ := by
    rw [compile_eq_ok_iff]
    simp only [ReadAs, Entry.lexemes, List.nil_append, List.cons_append]
    decide +kernel
  have found : Template.search
      ⟨rootName, [.block "b" [.text "x", .block "c" [.expression "y"]]]⟩ "c" =
        some ⟨[0, 0], ⟨"c", [.expression "y"]⟩⟩ := by
    simp [Template.search, Site.firstBelow, Site.below, Template.children, List.filterMap_cons,
      Entry.template?, rootName]
  obtain ⟨blocks, searches⟩ := compile_body compiled
  constructor
  · obtain ⟨e, node, ends, reached, _, ⟨body, encloses⟩, alone⟩ :=
      blocks [⟨.blockStart "b", ⟨0, 1, 1⟩⟩, ⟨.text "x", ⟨7, 1, 8⟩⟩]
        ⟨.blockStart "c", ⟨8, 1, 9⟩⟩
        [⟨.expression "y", ⟨15, 1, 16⟩⟩, ⟨.blockStop, ⟨20, 1, 21⟩⟩, ⟨.blockStop, ⟨26, 1, 27⟩⟩]
        "c" (by decide +kernel) rfl
    cases reached
    exact ⟨e, body, ends, encloses, alone body encloses⟩
  · obtain ⟨_, _, _, _, _, alone, _, _, _, _, _, _, same⟩ := searches "c" _ (by decide) found
    exact ⟨alone, same⟩

end Stencil
