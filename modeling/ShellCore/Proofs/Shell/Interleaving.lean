import ShellCore.Proofs.Shell.Sourcing

namespace ShellCore.Shell

/-!
# Nested sources between root lines

However root lines and nested sources alternate, each is lexed as it is by itself:
a string that is open in the one is not open in the other, and each numbers its own
lines. Only the tables are shared, and handles of sources are given out in order.
-/

variable {shell first last : Shell} {log : List RootLine}

/--
A nested source that a shell accepts is lexed as it is by itself, with lines that are
numbered from one. It stays so under its handle, which nothing had before.
-/
structure LexedApart
    (before : Shell)
    (provenance : Provenance)
    (text : String)
    (lines : List LexedLine)
    (after : Shell) :
    Prop where
  alone : ∃ linesAlone lexer arena records,
    LineLexer.start.lexSource .empty provenance text = (.ok linesAlone, lexer, arena) ∧
      List.Forall₂ (arena.Shows Arena.empty.nextSource) linesAlone records ∧
        records.map (·.number) = List.range' 1 lines.length ∧
          ∀ {more : List RootLine} {later : Shell},
            Sourcing after more later →
            List.Forall₂ (later.arena.Shows before.arena.nextSource) lines records
  /-- As long as there are words for handles of sources. -/
  unused : before.arena.sources.size < UInt32.size →
    before.arena.IsUnused before.arena.nextSource ∧
      after.arena.source? before.arena.nextSource = some provenance

/-- A new shell has its root source open, and nothing else. -/
theorem new_sources
    {config : Config}
    {host : Host}
    (built : new config host = .ok shell) :
    shell.linesFed = 0 ∧
      shell.arena.openSources = [⟨0⟩] ∧
        shell.arena.currentSource? = some ⟨0⟩ ∧
          shell.arena.Reachable := by
  have reachable := new_reachable built
  unfold new at built
  split at built
  · cases built
  · cases built
    exact ⟨rfl, rfl, rfl, reachable⟩

theorem feedLine_openSources
    (shell : Shell)
    (text : String) :
    (shell.feedLine text).2.arena.openSources = shell.arena.openSources :=
  (shell.lexer.feedLine_registered shell.arena text (shell.linesFed + 1)).openSources

/-- What a shell shows of lexed lines it shows from then on. -/
theorem Follows.shows_later
    {source : SourceId}
    {texts : List String}
    {fed lines : List LexedLine}
    {after later : Shell}
    {tag : SourceId}
    {records : List LineRecord}
    {more : List RootLine}
    (follows : Follows first source texts fed after)
    (shown : List.Forall₂ (after.arena.Shows tag) lines records)
    (history : Sourcing after more later) :
    List.Forall₂ (later.arena.Shows tag) lines records :=
  Arena.Shows.all_later (history.follows follows.isOpen follows.counted).tables shown

theorem Follows.lexedApart
    {source : SourceId}
    {texts : List String}
    {fed lines : List LexedLine}
    {provenance : Provenance}
    {text : String}
    {after : Shell}
    (follows : Follows first source texts fed last)
    (reachable : last.arena.Reachable)
    (accepted : last.lexSource provenance text = (.ok lines, after)) :
    LexedApart last provenance text lines after := by
  have stillFollows := follows.step (.lexSource provenance text)
  rw [accepted] at stillFollows
  obtain ⟨lexer, arena, lexed, rfl⟩ := lexSource_ok_iff.mp accepted
  have lexes := LineLexer.lexSource_lexes lexed
  obtain ⟨linesAlone, alone, lexedAlone⟩ := LineLexer.lexSource_alone lexed
  constructor
  · refine ⟨linesAlone, lexer, alone, _, lexedAlone,
      (LineLexer.lexSource_lexes lexedAlone).shows, ?_, ?_⟩
    · have sameLength := lexes.shows.length_eq
      rw [LineLexer.length_records] at sameLength
      rw [LineLexer.records_numbers, sameLength]
    · intro more later history
      exact stillFollows.shows_later lexes.shows history
  · intro room
    exact ⟨reachable.wellFormed.next_isUnused room, lexes.found room⟩

/--
In every history of a new shell whose source stack is left alone, the root lines are
numbered from one and lexed as they are when nothing else is; each nested source is
lexed as it is by itself; no call changes the source stack. Lines are accepted as long
as there is room for them.
-/
theorem interleaved_sources_stay_apart
    {config : Config}
    {host : Host}
    (built : new config host = .ok first)
    (history : Sourcing first log last) :
    (∃ lines alone records,
      first.feedLines (log.map (·.text)) = (.ok lines, alone) ∧
        List.Forall₂ (last.arena.Shows ⟨0⟩) (log.map (·.lexed)) records ∧
          List.Forall₂ (alone.arena.Shows ⟨0⟩) lines records ∧
            records.map (·.number) = List.range' 1 log.length ∧
              last.lexer = alone.lexer) ∧
    (∀ {provenance : Provenance} {text : String} {lines : List LexedLine} {after : Shell},
      last.lexSource provenance text = (.ok lines, after) →
      LexedApart last provenance text lines after) ∧
    (last.arena.openSources = [⟨0⟩] ∧
      (∀ text, (last.feedLine text).2.arena.openSources = [⟨0⟩]) ∧
        ∀ provenance text, (last.lexSource provenance text).2.arena.openSources = [⟨0⟩]) ∧
    (∀ text,
      last.arena.HasRoom 1 (Text.byteLength text.toList) →
      ∃ lexed after, last.feedLine text = (.ok lexed, after)) ∧
    ∀ provenance text,
      last.arena.HasRoom (LineLexer.linesOf text).length (Text.byteLength text.toList) →
      ∃ lines after, last.lexSource provenance text = (.ok lines, after) := by
  obtain ⟨noLines, rootOnly, isOpen, reachable⟩ := new_sources built
  have counted : first.linesFed ≤ first.arena.lines.size := by
    rw [noLines]
    exact Nat.zero_le _
  have follows := history.follows isOpen counted
  have stack := follows.openSources.trans rootOnly
  obtain ⟨lines, alone, fedAlone, followsAlone, _⟩ := history.alone isOpen counted
  refine ⟨⟨lines, alone, _, fedAlone, follows.shows, followsAlone.shows, ?_, ?_⟩, ?_, ?_, ?_, ?_⟩
  · rw [LineLexer.records_numbers, noLines, List.length_map]
  · exact follows.lexer.trans followsAlone.lexer.symm
  · intro provenance text lines after accepted
    exact follows.lexedApart (history.reachable reachable) accepted
  · exact ⟨stack, fun text => (last.feedLine_openSources text).trans stack,
      fun provenance text => (KeepsSources.lexSource provenance text).openSources.trans stack⟩
  · intro text room
    have lineRoom : last.arena.lines.size < SpanId.none.index := room.lines
    have tokenRoom :
        last.arena.tokens.size + Text.byteLength text.toList < SpanId.none.index :=
      room.tokens
    obtain ⟨lexed, next, after, fed⟩ :=
      LineLexer.feedLine_succeeds last.lexer follows.isOpen lineRoom text tokenRoom
        (last.linesFed + 1)
    exact ⟨lexed, _, feedLine_ok_iff.mpr ⟨next, after, fed, rfl⟩⟩
  · intro provenance text room
    obtain ⟨lines, next, after, lexed⟩ :=
      LineLexer.lexSource_succeeds .start provenance text room
    exact ⟨lines, _, lexSource_ok_iff.mpr ⟨next, after, lexed, rfl⟩⟩

theorem feedLine_of_toOption
    {text : String}
    {lexed : LexedLine}
    (accepted : (shell.feedLine text).1.toOption = some lexed) :
    shell.feedLine text = (.ok lexed, (shell.feedLine text).2) :=
  Prod.ext (Arena.ok_of_toOption accepted) rfl

/-- A string is open in the root source, and another at the end of the nested one. -/
theorem open_strings_stay_apart :
    ∃ first lexed next log last,
      new .transient (.memory .initial) = .ok first ∧
        Sourcing first log last ∧
          log = [⟨"a \"b\n", lexed⟩, ⟨"c\" d\n", next⟩] ∧
            (∃ lines alone records,
              first.feedLines ["a \"b\n", "c\" d\n"] = (.ok lines, alone) ∧
                List.Forall₂ (last.arena.Shows ⟨0⟩) [lexed, next] records ∧
                  List.Forall₂ (alone.arena.Shows ⟨0⟩) lines records ∧
                    records.map (·.number) = [1, 2]) ∧
              last.arena.openSources = [⟨0⟩] := by
  have ran :
      ((new .transient (.memory .initial)).toOption.bind fun first =>
        (first.feedLine "a \"b\n").1.toOption.bind fun _ =>
          ((execute 5 [.simple [.literal "true"] ⟨0⟩]).run
              ((first.feedLine "a \"b\n").2.lexSource (.eval ⟨0⟩) "e 'f").2).bind fun ended =>
            (ended.2.feedLine "c\" d\n").1.toOption).isSome = true := by
    decide +kernel
  obtain ⟨next, found⟩ := Option.isSome_iff_exists.mp ran
  obtain ⟨first, isBuilt, found⟩ := Option.bind_eq_some_iff.mp found
  obtain ⟨lexed, isFirst, found⟩ := Option.bind_eq_some_iff.mp found
  obtain ⟨⟨_, between⟩, executed, isNext⟩ := Option.bind_eq_some_iff.mp found
  have built : new .transient (.memory .initial) = .ok first := Arena.ok_of_toOption isBuilt
  have history :=
    (((Sourcing.start.step (.feedLine (feedLine_of_toOption isFirst))).step
      (.lexSource (.eval ⟨0⟩) "e 'f")).executed executed).step
        (.feedLine (feedLine_of_toOption isNext))
  obtain ⟨⟨lines, alone, records, fedAlone, shown, shownAlone, numbers, _⟩, _, stack, _⟩ :=
    interleaved_sources_stay_apart built history
  exact ⟨first, lexed, next, _, _, built, history, rfl,
    ⟨lines, alone, records, fedAlone, shown, shownAlone, numbers⟩, stack.1⟩

end ShellCore.Shell
