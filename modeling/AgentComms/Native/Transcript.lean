import Mathlib

/-!
# Records of a native transcript, read backwards

`reverse_records` looks for newlines in blocks of 65536 bytes from the end of the file and
reads each record between two of them once. What the scan keeps is the end of the record it
is in: below that end there is no newline down to where it has looked.
-/

namespace AgentComms.Native

section Records

def newline : UInt8 := 10

variable (content : List UInt8)

/-- A record's first offset, the offset after its last byte, and its bytes. -/
abbrev Record := ℕ × ℕ × List UInt8

/-- The stream's read of up to `count` bytes from an offset. -/
def read (position count : ℕ) : List UInt8 := (content.drop position).take count

/-- No newline at the offsets from `low` up to `high`. -/
def Clear (low high : ℕ) : Prop := ∀ i, low ≤ i → i < high → content[i]? ≠ some newline

/-- From `position` on there is no newline before the last byte below `ending`; that is a newline,
unless `ending` is where the scan began. -/
structure Edge (before position ending : ℕ) : Prop where
  le : position ≤ ending
  le_before : ending ≤ before
  ends : ending = before ∨ content[ending - 1]? = some newline
  inside : Clear content position (ending - 1)

/-- A piece of the bytes below `before`: it starts at the file's start or after a newline, and
ends after its first newline, or at `before` without one. -/
structure IsRecord (before : ℕ) (record : Record) : Prop
    extends Edge content before record.1 record.2.1 where
  nonempty : record.1 < record.2.1
  starts : record.1 = 0 ∨ content[record.1 - 1]? = some newline
  bytes : record.2.2 = read content record.1 (record.2.1 - record.1)

/-- The list has, newest first, the records that start in the range. -/
def Lists (before low high : ℕ) (records : List Record) : Prop :=
  records.Pairwise (fun later earlier => earlier.1 < later.1) ∧
    ∀ record, record ∈ records ↔
      IsRecord content before record ∧ low ≤ record.1 ∧ record.1 < high

/-- What a scan down to `position` leaves, from one that had reached the record `ending`. -/
def Scanned (before position ending : ℕ) (found : List Record × ℕ) : Prop :=
  found.2 ≤ ending ∧ Edge content before position found.2 ∧
    Lists content before found.2 ending found.1

variable {content} {before low mid high position ending other : ℕ}

theorem Clear.append (hlow : Clear content low mid)
    (hhigh : Clear content mid high) : Clear content low high := by
  intro i hi hlt
  by_cases hmid : i < mid
  exacts [hlow i hi hmid, hhigh i (by omega) hlt]

theorem Clear.empty (h : high ≤ low) : Clear content low high := fun i _ _ => by omega

/-- Nothing follows a block that was read short. -/
theorem Clear.beyond_read (content : List UInt8) (position count : ℕ) :
    Clear content (position + (read content position count).length) (position + count) := by
  intro i hlow hhigh
  rw [read, List.length_take, List.length_drop] at hlow
  simp [List.getElem?_eq_none (show content.length ≤ i by omega)]

theorem Edge.lower (hedge : Edge content before position ending) (hle : low ≤ position)
    (hclear : Clear content low position) : Edge content before low ending :=
  ⟨hle.trans hedge.le, hedge.le_before, hedge.ends, hclear.append hedge.inside⟩

/-- The shorter of two ends would be a newline inside the longer record. -/
theorem Edge.ending_eq (hedge : Edge content before position ending) (hlt : position < ending)
    (hother : Edge content before position other) (hlt' : position < other) : ending = other := by
  have hle := hedge.le_before
  have hle' := hother.le_before
  obtain hshort | rfl | hlong := Nat.lt_trichotomy ending other
  · exact absurd (hedge.ends.resolve_left (by omega)) (hother.inside _ (by omega) (by omega))
  · rfl
  · exact absurd (hother.ends.resolve_left (by omega)) (hedge.inside _ (by omega) (by omega))

/-- A later start would follow a newline inside the record that `ending` ends. -/
theorem Edge.start_eq (hedge : Edge content before position ending)
    {record : Record} (hrecord : IsRecord content before record)
    (hlow : position ≤ record.1) (hhigh : record.1 < ending) : record.1 = position := by
  by_contra hne
  exact hedge.inside (record.1 - 1) (by omega) (by omega) (hrecord.starts.resolve_left (by omega))

theorem Lists.nil : Lists content before low low [] := ⟨.nil, fun _ => by simp⟩

theorem Lists.append {later earlier : List Record} (hlow : low ≤ mid) (hhigh : mid ≤ high)
    (hlater : Lists content before mid high later)
    (hearlier : Lists content before low mid earlier) :
    Lists content before low high (later ++ earlier) := by
  refine ⟨List.pairwise_append.mpr ⟨hlater.1, hearlier.1, fun a ha b hb => ?_⟩, fun record => ?_⟩
  · exact ((hearlier.2 b).mp hb).2.2.trans_le ((hlater.2 a).mp ha).2.1
  · rw [List.mem_append, hlater.2, hearlier.2, ← and_or_left]
    exact and_congr_right fun _ => by omega

theorem Edge.lists_single (hedge : Edge content before position ending)
    (hlt : position < ending) (hstart : position = 0 ∨ content[position - 1]? = some newline) :
    Lists content before position ending
      [(position, ending, read content position (ending - position))] := by
  refine ⟨List.pairwise_singleton _ _, fun record => List.mem_singleton.trans
    ⟨fun h => h ▸ ⟨⟨hedge, hlt, hstart, rfl⟩, le_rfl, hlt⟩, fun ⟨hrecord, hlow, hhigh⟩ => ?_⟩⟩
  obtain ⟨start, finish, bytes⟩ := record
  obtain rfl : start = position := hedge.start_eq hrecord hlow hhigh
  obtain rfl : finish = ending := hrecord.ending_eq hrecord.nonempty hedge hlt
  rw [show bytes = _ from hrecord.bytes]

end Records

variable (content : List UInt8)

/-- The block's `rfind` of a newline before `stop`, in the block read from `position`. -/
def rfind (position : ℕ) : ℕ → Option ℕ
  | 0 => none
  | stop + 1 => if content[position + stop]? = some newline then some stop else rfind position stop

variable {content} in
theorem rfind_eq {position stop : ℕ} {found : Option ℕ}
    (hfound : rfind content position stop = found) :
    found = none ∧ Clear content position (position + stop) ∨
    ∃ boundary < stop, found = some boundary ∧ content[position + boundary]? = some newline ∧
      Clear content (position + boundary + 1) (position + stop) := by
  subst hfound
  induction stop with
  | zero => exact .inl ⟨rfl, .empty le_rfl⟩
  | succ stop ih =>
    rw [rfind]
    split
    next hnewline => exact .inr ⟨stop, by omega, rfl, hnewline, .empty (by omega)⟩
    next hnot =>
      have hlast : Clear content (position + stop) (position + (stop + 1)) := fun i hlow hhigh => by
        rwa [show i = position + stop by omega]
      obtain ⟨hnone, hclear⟩ | ⟨boundary, hlt, hsome, hnewline, hclear⟩ := ih
      · exact .inl ⟨hnone, hclear.append hlast⟩
      · exact .inr ⟨boundary, by omega, hsome, hnewline, hclear.append hlast⟩

theorem rfind_lt {position stop boundary : ℕ}
    (hfound : rfind content position stop = some boundary) : boundary < stop := by
  obtain ⟨⟨⟩, -⟩ | ⟨_, hlt, ⟨⟩, -⟩ := rfind_eq hfound
  exact hlt

/-- The loop over the newlines of one block: the records it yields and the end it leaves. -/
def scanBlock (position stop ending : ℕ) : List Record × ℕ :=
  match _hfound : rfind content position stop with
  | none => ([], ending)
  | some boundary =>
    let start := position + boundary + 1
    if start = ending then scanBlock position boundary ending
    else
      let rest := scanBlock position boundary start
      ((start, ending, read content start (ending - start)) :: rest.1, rest.2)
termination_by stop
decreasing_by all_goals exact rfind_lt content _hfound

/-- The loop over the blocks. -/
def scanBlocks (floor position ending : ℕ) : List Record × ℕ :=
  if position > floor then
    let count := min (position - floor) 65536
    let block := read content (position - count) count
    let found := scanBlock content (position - count) block.length ending
    let rest := scanBlocks floor (position - count) found.2
    (found.1 ++ rest.1, rest.2)
  else ([], ending)
termination_by position

def reverseRecords (before floor : ℕ) : List Record :=
  let (records, ending) := scanBlocks content floor before before
  if ending > floor ∧ (floor = 0 ∨ read content (floor - 1) 1 = [newline]) then
    records ++ [(floor, ending, read content floor (ending - floor))]
  else records

def recordEnd (position : ℕ) : ℕ :=
  if position > 0 then
    let count := min position 65536
    match rfind content (position - count) (read content (position - count) count).length with
    | some boundary => position - count + boundary + 1
    | none => recordEnd (position - count)
  else 0
termination_by position

variable {content} {before position ending floor : ℕ}

theorem scanBlock_scanned {stop : ℕ} (hedge : Edge content before (position + stop) ending) :
    Scanned content before position ending (scanBlock content position stop ending) := by
  induction stop using Nat.strong_induction_on generalizing ending with
  | h stop ih =>
    rw [scanBlock]
    split
    next hfound =>
      obtain ⟨-, hclear⟩ | ⟨_, -, ⟨⟩, -⟩ := rfind_eq hfound
      exact ⟨le_rfl, hedge.lower (by omega) hclear, .nil⟩
    next boundary hfound =>
      obtain ⟨⟨⟩, -⟩ | ⟨_, hlt, ⟨⟩, hnewline, hclear⟩ := rfind_eq hfound
      have hstart := hedge.lower (by omega) hclear
      have hbelow : Edge content before (position + boundary) (position + boundary + 1) :=
        ⟨by omega, hstart.le.trans hstart.le_before, .inr hnewline, .empty le_rfl⟩
      obtain ⟨hle, hedge', hlists⟩ := ih boundary hlt hbelow
      dsimp only
      split
      next heq => exact heq ▸ ⟨hle, hedge', hlists⟩
      next hne =>
        have hsingle := hstart.lists_single (lt_of_le_of_ne hstart.le hne) (.inr hnewline)
        exact ⟨hle.trans hstart.le, hedge', hsingle.append hle hstart.le hlists⟩

theorem scanBlocks_scanned (hfloor : floor ≤ position)
    (hedge : Edge content before position ending) :
    Scanned content before floor ending (scanBlocks content floor position ending) := by
  induction position using Nat.strong_induction_on generalizing ending with
  | h position ih =>
    rw [scanBlocks]
    split
    next hlt =>
      generalize hsize : min (position - floor) 65536 = count
      have hbeyond := Clear.beyond_read content (position - count) count
      rw [show position - count + count = position by omega] at hbeyond
      have hshort := hedge.lower (by rw [read, List.length_take]; omega) hbeyond
      obtain ⟨hle₁, hedge₁, hlists₁⟩ := scanBlock_scanned hshort
      obtain ⟨hle₂, hedge₂, hlists₂⟩ := ih (position - count) (by omega) (by omega) hedge₁
      exact ⟨hle₂.trans hle₁, hedge₂, hlists₁.append hle₂ hle₁ hlists₂⟩
    next hge => exact ⟨le_rfl, hedge.lower hfloor (.empty (by omega)), .nil⟩

theorem reverseRecords_lists (hfloor : floor ≤ before) :
    Lists content before floor before (reverseRecords content before floor) := by
  have hfirst : Edge content before before before :=
    ⟨le_rfl, le_rfl, .inl rfl, .empty (by omega)⟩
  obtain ⟨hle, hedge, hlists⟩ := scanBlocks_scanned hfloor hfirst
  rw [reverseRecords]
  generalize scanBlocks content floor before before = scanned at *
  obtain ⟨records, ending⟩ := scanned
  have hread : read content (floor - 1) 1 = [newline] ↔ content[floor - 1]? = some newline := by
    rw [read, List.take_one, List.head?_drop]
    cases content[floor - 1]? <;> simp
  simp only [hread] at *
  split
  next hlast => exact hlists.append hedge.le hle (hedge.lists_single hlast.1 hlast.2)
  next hlast =>
    have hnone : Lists content before floor ending [] := by
      refine ⟨.nil, fun record => iff_of_false List.not_mem_nil fun ⟨hrecord, hlow, hhigh⟩ => ?_⟩
      refine absurd ⟨hlow.trans_lt hhigh, ?_⟩ hlast
      exact hedge.start_eq hrecord hlow hhigh ▸ hrecord.starts
    exact List.append_nil records ▸ hlists.append hedge.le hle hnone

theorem recordEnd_spec (size : ℕ) : recordEnd content size ≤ size ∧
      (recordEnd content size = 0 ∨ content[recordEnd content size - 1]? = some newline) ∧
      Clear content (recordEnd content size) size := by
  induction size using Nat.strong_induction_on with
  | h size ih =>
    rw [recordEnd]
    split
    next hpos =>
      generalize hsize : min size 65536 = count
      have hbeyond := Clear.beyond_read content (size - count) count
      rw [show size - count + count = size by omega] at hbeyond
      have hle : (read content (size - count) count).length ≤ count := by simp [read]
      dsimp only
      split
      next boundary hfound =>
        obtain ⟨⟨⟩, -⟩ | ⟨_, hlt, ⟨⟩, hnewline, hclear⟩ := rfind_eq hfound
        exact ⟨by omega, .inr hnewline, hclear.append hbeyond⟩
      next hfound =>
        obtain ⟨-, hblock⟩ | ⟨_, -, ⟨⟩, -⟩ := rfind_eq hfound
        obtain ⟨hbelow, hlast, hclear⟩ := ih (size - count) (by omega)
        exact ⟨by omega, hlast, hclear.append (hblock.append hbeyond)⟩
    next hzero => exact ⟨by omega, .inl rfl, .empty (by omega)⟩

/-- The records of a range, each once and newest first, wherever the blocks fall; and the end
of the last record that a newline ends. -/
theorem records_read_exactly (content : List UInt8) : (∀ before floor, floor ≤ before →
      (reverseRecords content before floor).Pairwise (fun later earlier => earlier.1 < later.1) ∧
        ∀ record, record ∈ reverseRecords content before floor ↔
          IsRecord content before record ∧ floor ≤ record.1) ∧
    ∀ size, recordEnd content size ≤ size ∧
      (recordEnd content size = 0 ∨ content[recordEnd content size - 1]? = some newline) ∧
      Clear content (recordEnd content size) size := by
  refine ⟨fun before floor hfloor => ?_, recordEnd_spec⟩
  have hlists : Lists content before floor before _ := reverseRecords_lists hfloor
  refine ⟨hlists.1, fun record => (hlists.2 record).trans (and_congr_right fun hrecord => ?_)⟩
  exact and_iff_left (hrecord.nonempty.trans_le hrecord.le_before)

end AgentComms.Native
