import Synod.Proofs.Json.Members
import Synod.Proofs.Json.Written
import Synod.Workspace

/-!
Layouts are loaded from what is written of them, and from any other object with the same members. An
object without the epoch, or with a field twice, is refused.
-/
namespace Synod

namespace Json

variable {bs gap before after rest : Bytes} {entries : List Entry} {m : Members} {l : Layout}

section Objects

theorem readLayout_open (hg : Gap gap) (rest : Bytes) :
    readLayout (gap ++ code '\x7b' :: rest) = readObject rest := by
  rw [readLayout, skipSpace_gap_cons hg rfl]
  rfl

/-- An object with blanks around it is read as what its members come to. -/
theorem parse_of_readMembers (hb : Gap before) (ha : Gap after)
    (h : readMembers (rest.length + 1) true {} rest = .ok (m, code '\x7d' :: after)) :
    parse (before ++ code '\x7b' :: rest) = m.layout := by
  have hend : skipSpace after = [] := by
    have hskip := skipSpace_gap ha []
    rwa [List.append_nil] at hskip
  rw [parse, readLayout_open hb, readObject, h]
  simp only [bind, Except.bind]
  cases m.layout with
  | error e => rfl
  | ok l => simp only [List.drop_succ_cons, List.drop_zero, hend, pure, Except.pure]

/-- Where an object is read as a layout, its members were read. -/
theorem readMembers_of_parse (hg : Gap gap) (h : parse (gap ++ code '\x7b' :: rest) = .ok l) :
    ∃ m left, readMembers (rest.length + 1) true {} rest = .ok (m, left) ∧ m.layout = .ok l := by
  rw [parse, readLayout_open hg] at h
  obtain ⟨⟨l', r⟩, hobject, h⟩ := bind_eq_ok h
  obtain ⟨⟨m, left⟩, hmembers, hobject⟩ := bind_eq_ok hobject
  obtain ⟨l'', hlayout, hobject⟩ := bind_eq_ok hobject
  obtain ⟨rfl, rfl⟩ := Prod.mk.inj (Except.ok.inj hobject)
  refine ⟨m, left, hmembers, ?_⟩
  dsimp only at h
  split at h
  · exact hlayout.trans h
  · cases h

theorem ne_nil_of_entryForm (e : Entry) (bs : Bytes) (h : EntryForm e bs) : bs ≠ [] := by
  obtain ⟨_, _, _⟩ := h
  simp

theorem body_of_document (hd : Document entries bs) :
    ∃ before body after, Gap before ∧ Gap after ∧
      bs = before ++ code '\x7b' :: (body ++ code '\x7d' :: after) ∧
      (entries = [] ∧ Gap body ∨ Commas (Spaced EntryForm) entries body) := by
  obtain ⟨hb, hobject, ha⟩ := hd
  cases hobject with
  | empty hg => exact ⟨_, _, _, hb, ha, by simp, .inl ⟨rfl, hg⟩⟩
  | full hs => exact ⟨_, _, _, hb, ha, by simp, .inr hs⟩

theorem parse_of_takesAll (hd : Document entries bs) (ht : TakesAll entries {} m) :
    parse bs = m.layout := by
  obtain ⟨before, body, after, hb, ha, rfl, hbody⟩ := body_of_document hd
  apply parse_of_readMembers hb ha
  rcases hbody with ⟨rfl, hg⟩ | hs
  · cases ht
    exact readMembers_end hg _ _ _ _
  · -- No member is empty, so that the length of the text is fuel enough for them all.
    have hle := length_le_of_commas ne_nil_of_entryForm hs
    apply readMembers_of_commas hs _ _ true {} m [] ht _ gap_nil
    simp only [List.length_append]
    omega

/-- A text that describes a layout is read as that layout. -/
theorem parse_of_describes (hd : Document entries bs) (h : Describes entries l) :
    parse bs = .ok l := by
  have hlist {values : List Bytes} {ss : List String} (h : GivesList values ss) :
      Settles TextList (some []) values ss none :=
    h.imp_right (And.imp_right fun hs => congrArg some hs.symm)
  have hc : Completes {} entries l :=
    { epoch := .inl ⟨_, h.epoch, rfl⟩
      layoutServers := hlist h.layoutServers
      sequencers := hlist h.sequencers
      logServers := hlist h.logServers
      others := h.others }
  obtain ⟨m, ht, hl⟩ := takesAll_of_completes hc
  exact (parse_of_takesAll hd ht).trans hl

/-- An object that is read as a layout has the epoch once, and no field twice. -/
theorem count_of_parse (hd : Document entries bs) (hv : ∀ e ∈ entries, Form .value e.value)
    (h : parse bs = .ok l) :
    (valuesOf "epoch" entries).length = 1 ∧
      ∀ key ∈ fieldKeys, (valuesOf key entries).length ≤ 1 := by
  obtain ⟨before, body, after, hb, -, rfl, hbody⟩ := body_of_document hd
  obtain ⟨m, left, hread, hl⟩ := readMembers_of_parse hb h
  have hcount : ∀ key ∈ fieldKeys, m.count key = (valuesOf key entries).length := by
    intro key hkey
    rcases hbody with ⟨rfl, hg⟩ | hs
    · rw [readMembers_end hg] at hread
      obtain ⟨rfl, -⟩ := Prod.mk.inj (Except.ok.inj hread)
      exact count_empty key
    · have hcount := count_of_readMembers hs _ _ true {} [] hv gap_nil hread key hkey
      rwa [count_empty, Nat.zero_add] at hcount
  refine ⟨?_, fun key hkey => hcount key hkey ▸ count_le m key⟩
  rw [← hcount "epoch" (by simp [fieldKeys])]
  exact count_of_layout hl

/-- An object without the epoch, or with a field twice, gives no layout. -/
theorem parse_refused (hd : Document entries bs) (hv : ∀ e ∈ entries, Form .value e.value)
    (h : valuesOf "epoch" entries = [] ∨ ∃ key ∈ fieldKeys, 1 < (valuesOf key entries).length) :
    ∃ e, parse bs = .error e := by
  cases hp : parse bs with
  | error e => exact ⟨e, rfl⟩
  | ok l =>
    obtain ⟨hepoch, hfields⟩ := count_of_parse hd hv hp
    rcases h with h | ⟨key, hkey, h⟩
    · rw [h] at hepoch
      cases hepoch
    · exact absurd (hfields key hkey) (Nat.not_le_of_lt h)

theorem parse_write (l : Layout) : parse (Text.encode (write l)) = .ok l :=
  parse_of_describes (document_write l) (describes_writtenEntries l)

end Objects

section Samples

/-- An object with blanks, escapes, a member that no layout has, the epoch last and two lists left
out. -/
def scattered : String :=
  " \x7b\"\\u006F\":[\x7b\"a\":null\x7d], \"log_servers\" : [ \"\\uD83d\\uDE00\\n\" ] ," ++
    "\"epoch\":7\x7d"

/-- The members of `scattered`. -/
def scatteredEntries : List Entry :=
  [⟨"o", Text.encode "[\x7b\"a\":null\x7d]"⟩,
    ⟨"log_servers", Text.encode "[ \"\\uD83d\\uDE00\\n\" ]"⟩, ⟨"epoch", [code '7']⟩]

theorem document_scattered : Document scatteredEntries (Text.encode scattered) := by
  have hblank : Gap [code ' '] := by decide
  have hhex : Hex 'o'.toNat (['0', '0', '6', 'F'].map code) :=
    .mk (by decide : HexDigit 0 _) (by decide : HexDigit 0 _) (by decide : HexDigit 6 _)
      (by decide : HexDigit 15 _)
  have hkey := @Quoted.mk "o" _ (.cons (.hex hhex) .nil)
  have hother := @EntryForm.mk ⟨"o", Text.encode "[\x7b\"a\":null\x7d]"⟩ _ _ _ hkey gap_nil gap_nil
  have hservers := @EntryForm.mk ⟨"log_servers", Text.encode "[ \"\\uD83d\\uDE00\\n\" ]"⟩ _ _ _
    (quoted_writtenText _) hblank hblank
  have hepoch := @EntryForm.mk ⟨"epoch", [code '7']⟩ _ _ _ (quoted_writtenText _) gap_nil gap_nil
  have hlast := Commas.one (Spaced.mk gap_nil hepoch gap_nil)
  have hmembers := Commas.more (Spaced.mk gap_nil hother gap_nil)
    (.more (Spaced.mk hblank hservers hblank) hlast)
  have hobject : Bracketed EntryForm '\x7b' '\x7d' scatteredEntries _ := .full hmembers
  exact Eq.subst (motive := Document scatteredEntries) (by decide)
    (Spaced.mk hblank hobject gap_nil)

theorem describes_scattered : Describes scatteredEntries ⟨7, [], [], ["😀\n"]⟩ where
  epoch := by decide
  layoutServers := .inr (by decide)
  sequencers := .inr (by decide)
  logServers := by
    have hblank : Gap [code ' '] := by decide
    have hhigh : Hex (0xD800 + ('😀'.toNat - 0x10000) / 0x400) (['D', '8', '3', 'd'].map code) :=
      .mk (by decide : HexDigit 13 _) (by decide : HexDigit 8 _) (by decide : HexDigit 3 _)
        (by decide : HexDigit 13 _)
    have hlow : Hex (0xDC00 + ('😀'.toNat - 0x10000) % 0x400) (['D', 'E', '0', '0'].map code) :=
      .mk (by decide : HexDigit 13 _) (by decide : HexDigit 14 _) (by decide : HexDigit 0 _)
        (by decide : HexDigit 0 _)
    have hline : Spelled '\n' [code '\\', code 'n'] := .short (by decide)
    have htext := @Quoted.mk "😀\n" _ (.cons (.pair (by decide) hhigh hlow) (.cons hline .nil))
    exact .inl ⟨_, rfl, Bracketed.full (Commas.one (Spaced.mk hblank htext hblank))⟩
  others := by
    have hkey : Pieces ([code 'a'] ++ []) := .cons (.plain (by decide) (by decide) (by decide)) .nil
    have hnull : Form .value ("null".toList.map code) := .word (by decide)
    have hmember := Form.member gap_nil hkey gap_nil (.item gap_nil hnull gap_nil)
    have hobject := Form.item gap_nil (.object (.lastMember hmember)) gap_nil
    intro e he hk
    simp only [scatteredEntries, List.mem_cons, List.not_mem_nil, or_false] at he
    rcases he with rfl | rfl | rfl
    · exact Form.list (.lastItem hobject)
    · exact absurd (by decide) hk
    · exact absurd (by decide) hk

/-- An object with two epochs, of which one has its key escaped. -/
def doubled : String := "\x7b\"epoch\":1,\"\\u0065poch\":2\x7d"

/-- The members of `doubled`. -/
def doubledEntries : List Entry := [⟨"epoch", [code '1']⟩, ⟨"epoch", [code '2']⟩]

theorem document_doubled : Document doubledEntries (Text.encode doubled) := by
  have hhex : Hex 'e'.toNat (['0', '0', '6', '5'].map code) :=
    .mk (by decide : HexDigit 0 _) (by decide : HexDigit 0 _) (by decide : HexDigit 6 _)
      (by decide : HexDigit 5 _)
  have hkey := @Quoted.mk "epoch" _ (.cons (.hex hhex) (content_written ['p', 'o', 'c', 'h']))
  have hfirst := @EntryForm.mk ⟨"epoch", [code '1']⟩ _ _ _ (quoted_writtenText _) gap_nil gap_nil
  have hsecond := @EntryForm.mk ⟨"epoch", [code '2']⟩ _ _ _ hkey gap_nil gap_nil
  have hmembers := Commas.more (spaced_self hfirst) (.one (spaced_self hsecond))
  have hobject : Bracketed EntryForm '\x7b' '\x7d' doubledEntries _ := .full hmembers
  exact Eq.subst (motive := Document doubledEntries) (by decide) (spaced_self hobject)

theorem form_doubled : ∀ e ∈ doubledEntries, Form .value e.value := by
  intro e he
  have hform (n : Nat) : Form .value ([] ++ (Nat.toDigits 10 n).map code ++ [] ++ []) :=
    .number (.mk (by decide) (whole_toDigits n) (.inl rfl) (.inl rfl))
  simp only [doubledEntries, List.mem_cons, List.not_mem_nil, or_false] at he
  rcases he with rfl | rfl
  · exact hform 1
  · exact hform 2

end Samples

end Json

namespace Layout

variable {w : Workspace} {path : String} {bs : Bytes}

/-- A tree of one file. -/
def tree (bs : Bytes) : Workspace := ⟨[(["l"], .file bs)], []⟩

theorem opened_tree (bs : Bytes) : (tree bs).opened "/l" = .file bs := rfl

theorem load_file (h : w.opened path = .file bs) :
    load w path = (Json.parse bs).mapError (.parsing path) := by
  rw [load, h]
  rfl

/-- A file that holds a layout as it is written, or any object that describes it, is loaded as that
layout; one that holds an object without the epoch, or with a field twice, is refused. -/
theorem load_document (h : w.opened path = .file bs) :
    (∀ l, bs = Text.encode (Json.write l) → load w path = .ok l) ∧
      ∀ entries, Json.Document entries bs →
        (∀ l, Json.Describes entries l → load w path = .ok l) ∧
        ((∀ e ∈ entries, Json.Form .value e.value) →
          (Json.valuesOf "epoch" entries = [] ∨
            ∃ key ∈ Json.fieldKeys, 1 < (Json.valuesOf key entries).length) →
          ∃ cause, load w path = .error (.parsing path cause)) := by
  rw [load_file h]
  refine ⟨?_, fun entries hd => ⟨?_, ?_⟩⟩
  · intro l hbs
    rw [hbs, Json.parse_write]
    rfl
  · intro l hl
    rw [Json.parse_of_describes hd hl]
    rfl
  · intro hv hbad
    obtain ⟨cause, hp⟩ := Json.parse_refused hd hv hbad
    refine ⟨cause, ?_⟩
    rw [hp]
    rfl

theorem load_document_scattered :
    let l : Layout := ⟨7, [], [], ["😀\n"]⟩
    load (tree (Text.encode (Json.write l))) "/l" = .ok l ∧
      load (tree (Text.encode Json.scattered)) "/l" = .ok l ∧
      ∃ cause, load (tree (Text.encode Json.doubled)) "/l" = .error (.parsing "/l" cause) := by
  intro l
  refine ⟨?_, ?_, ?_⟩
  · exact (load_document (opened_tree _)).1 l rfl
  · exact ((load_document (opened_tree _)).2 _ Json.document_scattered).1 l Json.describes_scattered
  · apply ((load_document (opened_tree _)).2 _ Json.document_doubled).2 Json.form_doubled
    exact .inr ⟨"epoch", by decide, by decide⟩

end Layout

end Synod
