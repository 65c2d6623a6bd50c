import BleRepeater.Library.LastAnswer
import BleRepeater.Ble.Operations

/-!
# Detecting the service

`check_for_uuid` goes over the structures of an advertisement with the iterator of the
Bluetooth stack, which is a parameter here.  It compares the start of every list of 128-bit
services with the UUID and the start of every local name with the service name, as many bytes
as these have, and each comparison overwrites the result of the one before.
-/

namespace BleRepeater.MainProgram

/-- `packet_service_uuid_reversed`. -/
def packetServiceUuidReversed : Bytes :=
  [0xf7, 0x7e, 0x7f, 0x54, 0x13, 0xe5, 0x74, 0x8a, 0xee, 0x49, 0x0d, 0xa1, 0xca, 0xfe, 0x8c, 0x29]

/-- The memory from `advertisement_data` on, the payload and what lies behind it. -/
abbrev Memory := Nat → UInt8

/-- What `ad_iterator_get_data_type`, `ad_iterator_get_data_len` and `ad_iterator_get_data`
return at one structure; the data is an index into the memory. -/
structure AdItem where
  dataType : UInt8
  dataLen : UInt8
  data : Nat
  deriving DecidableEq

/-- The types of the incomplete list, the complete list and the solicitation list of 128-bit
service UUIDs. -/
def listsServices (dataType : UInt8) : Bool :=
  dataType == 0x06 || dataType == 0x07 || dataType == 0x15

/-- The types of the shortened and the complete local name. -/
def namesDevice (dataType : UInt8) : Bool :=
  dataType == 0x08 || dataType == 0x09

/-- `0 == memcmp(expected, memory + start, count)`, where `count` is the length of what is
expected. -/
def sameBytes (memory : Memory) (expected : Bytes) (start : Nat) : Bool :=
  ((List.range expected.length).map fun index => memory (start + index)) == expected

/-- A call of `memcmp` with the data of a structure: it compares `count` bytes. -/
structure Comparison where
  item : AdItem
  count : Nat

/-- The variables of the loop in `check_for_uuid`, and the comparisons made so far. -/
structure UuidCheck where
  foundUuid : Bool := false
  foundName : Bool := false
  comparisons : List Comparison := []

/-- One turn of the loop in `check_for_uuid`. -/
def UuidCheck.examine (memory : Memory) (check : UuidCheck) (item : AdItem) : UuidCheck :=
  if listsServices item.dataType then
    { check with
      foundUuid := sameBytes memory packetServiceUuidReversed item.data
      comparisons := check.comparisons ++ [⟨item, packetServiceUuidReversed.length⟩] }
  else if namesDevice item.dataType then
    { check with
      foundName := sameBytes memory Tracker.packetServiceName item.data
      comparisons := check.comparisons ++ [⟨item, Tracker.packetServiceName.length⟩] }
  else check

/-- The result for the two booleans. -/
def reported (foundUuid foundName : Bool) : ServiceUuidCheckStatus :=
  if foundUuid then if foundName then .andNameFound else .found else .notFound

/-- The iterator of the Bluetooth stack: all that it yields for a payload. -/
abbrev AdIterator := Memory → UInt8 → List AdItem

/-- The loop in `check_for_uuid`. -/
def uuidLoop (iterate : AdIterator) (memory : Memory) (advSize : UInt8) : UuidCheck :=
  (iterate memory advSize).foldl (UuidCheck.examine memory) {}

/-- `check_for_uuid`. -/
def checkForUuid (iterate : AdIterator) (memory : Memory) (advSize : UInt8) :
    ServiceUuidCheckStatus :=
  let check := uuidLoop iterate memory advSize
  reported check.foundUuid check.foundName

/-! ## Advertisements -/

/-- A well-formed AD structure. -/
structure AdStructure where
  dataType : UInt8
  data : Bytes
  deriving DecidableEq

namespace AdStructure

/-- The length byte counts the type and the data. -/
def bytes (structured : AdStructure) : Bytes :=
  UInt8.ofNat (structured.data.length + 1) :: structured.dataType :: structured.data

/-- One of the entries of a list is the UUID. -/
def hasUuid (structured : AdStructure) : Bool :=
  listsServices structured.dataType &&
    (List.range structured.data.length).any fun entry =>
      (structured.data.drop (16 * entry)).take 16 == packetServiceUuidReversed

/-- The data starts with the UUID. -/
def startsWithUuid (structured : AdStructure) : Bool :=
  packetServiceUuidReversed.isPrefixOf structured.data

/-- The data starts with the service name. -/
def startsWithName (structured : AdStructure) : Bool :=
  Tracker.packetServiceName.isPrefixOf structured.data

/-- A structure is as long as what `check_for_uuid` compares it with. -/
structure Whole (structured : AdStructure) : Prop where
  uuid : listsServices structured.dataType = true →
    packetServiceUuidReversed.length ≤ structured.data.length
  name : namesDevice structured.dataType = true →
    Tracker.packetServiceName.length ≤ structured.data.length

end AdStructure

/-- A sequence of well-formed structures whose size fits the parameter of
`check_for_uuid`. -/
structure Advertisement where
  structures : List AdStructure
  fits : (structures.flatMap AdStructure.bytes).length < 256

namespace Advertisement

def size (advertisement : Advertisement) : UInt8 :=
  UInt8.ofNat (advertisement.structures.flatMap AdStructure.bytes).length

/-- The structures as the iterator yields them, the first one at `start`. -/
def located : Nat → List AdStructure → List AdItem
  | _, [] => []
  | start, structured :: structures =>
      { dataType := structured.dataType
        dataLen := UInt8.ofNat structured.data.length
        data := start + 2 } ::
        located (start + structured.bytes.length) structures

/-- The payload starts the memory. -/
def In (advertisement : Advertisement) (memory : Memory) : Prop :=
  ∀ index byte, (advertisement.structures.flatMap AdStructure.bytes)[index]? = some byte →
    memory index = byte

/-- Some list has the UUID among its entries. -/
def hasUuid (advertisement : Advertisement) : Bool :=
  advertisement.structures.any AdStructure.hasUuid

/-- Some local name starts with the service name. -/
def hasName (advertisement : Advertisement) : Bool :=
  advertisement.structures.any fun structured =>
    namesDevice structured.dataType && structured.startsWithName

/-- The structures are long enough, and where one list has the UUID, all lists start with it
and the local names agree on whether they start with the service name. -/
structure Uniform (advertisement : Advertisement) : Prop where
  whole : ∀ structured ∈ advertisement.structures, structured.Whole
  uuids : advertisement.hasUuid = true → ∀ structured ∈ advertisement.structures,
    listsServices structured.dataType = true → structured.startsWithUuid = true
  names : advertisement.hasUuid = true → advertisement.hasName = true →
    ∀ structured ∈ advertisement.structures,
      namesDevice structured.dataType = true → structured.startsWithName = true

end Advertisement

/-- The iterator yields the structures of a payload in order. -/
def YieldsInOrder (iterate : AdIterator) : Prop :=
  ∀ (advertisement : Advertisement) (memory : Memory), advertisement.In memory →
    iterate memory advertisement.size = Advertisement.located 0 advertisement.structures

/-- The service is detected as it is advertised, in any order of the structures, and no byte
beyond a structure is compared. -/
structure Detected (iterate : AdIterator) (advertisement : Advertisement) (memory : Memory) :
    Prop where
  exact : checkForUuid iterate memory advertisement.size =
    reported advertisement.hasUuid advertisement.hasName
  ordered : ∀ (permuted : Advertisement) (other : Memory),
    permuted.structures.Perm advertisement.structures → permuted.In other →
    checkForUuid iterate other permuted.size = checkForUuid iterate memory advertisement.size
  inside : ∀ comparison ∈ (uuidLoop iterate memory advertisement.size).comparisons,
    comparison.count ≤ comparison.item.dataLen.toNat

/-! ## What the iterator yields -/

/-- An item stands for a structure whose data lies in the memory. -/
structure Lies (memory : Memory) (item : AdItem) (structured : AdStructure) : Prop where
  dataType : item.dataType = structured.dataType
  dataLen : item.dataLen.toNat = structured.data.length
  data : ∀ index byte, structured.data[index]? = some byte → memory (item.data + index) = byte

theorem lies_located {memory : Memory} {structures : List AdStructure} {start : Nat}
    (fits : (structures.flatMap AdStructure.bytes).length < 256)
    (there : ∀ index byte, (structures.flatMap AdStructure.bytes)[index]? = some byte →
      memory (start + index) = byte) :
    List.Forall₂ (Lies memory) (Advertisement.located start structures) structures := by
  induction structures generalizing start with
  | nil => exact .nil
  | cons structured structures ih =>
      rw [List.flatMap_cons, List.length_append] at fits
      have width : structured.bytes.length = structured.data.length + 2 := rfl
      refine .cons ⟨rfl, ?_, ?_⟩ (ih (by omega) ?_)
      · simp only
        rw [UInt8.toNat_ofNat', Nat.mod_eq_of_lt (by omega)]
      · intro index byte found
        obtain ⟨inside, _⟩ := List.getElem?_eq_some_iff.mp found
        have place := there (index + 2) byte (by
          rw [List.flatMap_cons, List.getElem?_append_left (by omega)]
          exact found)
        rw [← place]
        congr 1
        simp only
        omega
      · intro index byte found
        have place := there (structured.bytes.length + index) byte (by
          rw [List.flatMap_cons, List.getElem?_append_right (by omega)]
          simpa using found)
        rw [← place, Nat.add_assoc]

/-- A comparison that stays inside a structure asks whether the data starts with what is
expected. -/
theorem sameBytes_eq {memory : Memory} {item : AdItem} {structured : AdStructure}
    {expected : Bytes} (lies : Lies memory item structured)
    (inside : expected.length ≤ structured.data.length) :
    sameBytes memory expected item.data = expected.isPrefixOf structured.data := by
  have read : (List.range expected.length).map (fun index => memory (item.data + index)) =
      structured.data.take expected.length := by
    apply List.ext_getElem
    · simpa using inside
    · intro index left right
      simp only [List.length_map, List.length_range] at left
      rw [List.getElem_map, List.getElem_range, List.getElem_take]
      exact lies.data index _ (List.getElem?_eq_getElem (by omega))
  rw [sameBytes, read, Bool.eq_iff_iff, List.isPrefixOf_iff_prefix, List.prefix_iff_eq_take,
    beq_iff_eq, eq_comm]

/-! ## The loop -/

theorem namesDevice_of_listsServices {dataType : UInt8} (lists : listsServices dataType = true) :
    namesDevice dataType = false := by
  simp only [listsServices, Bool.or_eq_true, beq_iff_eq] at lists
  rcases lists with (rfl | rfl) | rfl <;> decide

variable {memory : Memory} {items : List AdItem} {check : UuidCheck}

/-- Each boolean is that of the last comparison made for it. -/
theorem foundUuid_loop : (items.foldl (UuidCheck.examine memory) check).foundUuid =
    lastAnswer (fun item => listsServices item.dataType)
      (fun item => sameBytes memory packetServiceUuidReversed item.data) check.foundUuid
      items := by
  induction items generalizing check with
  | nil => rfl
  | cons item items ih =>
      rw [List.foldl_cons, ih, lastAnswer, lastAnswer, List.foldl_cons]
      congr 1
      unfold UuidCheck.examine
      split
      · rfl
      · split <;> rfl

theorem foundName_loop : (items.foldl (UuidCheck.examine memory) check).foundName =
    lastAnswer (fun item => namesDevice item.dataType)
      (fun item => sameBytes memory Tracker.packetServiceName item.data) check.foundName
      items := by
  induction items generalizing check with
  | nil => rfl
  | cons item items ih =>
      rw [List.foldl_cons, ih, lastAnswer, lastAnswer, List.foldl_cons]
      congr 1
      unfold UuidCheck.examine
      split
      · rename_i lists
        rw [namesDevice_of_listsServices lists]
        rfl
      · split <;> rfl

/-- How many bytes a structure of a type is compared in, if it is compared. -/
def comparedBytes (dataType : UInt8) : Option Nat :=
  if listsServices dataType then some packetServiceUuidReversed.length
  else if namesDevice dataType then some Tracker.packetServiceName.length
  else none

theorem comparisons_loop : (items.foldl (UuidCheck.examine memory) check).comparisons =
    check.comparisons ++ items.filterMap fun item =>
      (comparedBytes item.dataType).map fun count => ⟨item, count⟩ := by
  induction items generalizing check with
  | nil => simp
  | cons item items ih =>
      rw [List.foldl_cons, ih, List.filterMap_cons]
      unfold UuidCheck.examine comparedBytes
      split
      · simp
      · split <;> simp

theorem whole_iff {structured : AdStructure} :
    structured.Whole ↔
      ∀ count, comparedBytes structured.dataType = some count → count ≤ structured.data.length := by
  unfold comparedBytes
  constructor
  · intro whole count compared
    split at compared
    · cases compared
      exact whole.uuid ‹_›
    · split at compared
      · cases compared
        exact whole.name ‹_›
      · cases compared
  · intro inside
    refine ⟨fun lists => inside _ (by rw [if_pos lists]), fun names => inside _ ?_⟩
    have others : listsServices structured.dataType ≠ true := by
      intro lists
      rw [namesDevice_of_listsServices lists] at names
      cases names
    rw [if_neg others, if_pos names]

/-! ## Detection -/

/-- The last list starts with the UUID. -/
def lastUuid (structures : List AdStructure) : Bool :=
  lastAnswer (fun structured => listsServices structured.dataType) AdStructure.startsWithUuid
    false structures

/-- The last local name starts with the service name. -/
def lastName (structures : List AdStructure) : Bool :=
  lastAnswer (fun structured => namesDevice structured.dataType) AdStructure.startsWithName
    false structures

variable {iterate : AdIterator} {advertisement : Advertisement}

theorem lies_iterate (yields : YieldsInOrder iterate) (present : advertisement.In memory) :
    List.Forall₂ (Lies memory) (iterate memory advertisement.size) advertisement.structures := by
  rw [yields advertisement memory present]
  refine lies_located advertisement.fits ?_
  intro index byte found
  rw [Nat.zero_add]
  exact present index byte found

/-- Where the structures are long enough, the last list and the last local name decide. -/
theorem checkForUuid_eq (yields : YieldsInOrder iterate) (present : advertisement.In memory)
    (whole : ∀ structured ∈ advertisement.structures, structured.Whole) :
    checkForUuid iterate memory advertisement.size =
      reported (lastUuid advertisement.structures) (lastName advertisement.structures) := by
  have lies := lies_iterate yields present
  unfold checkForUuid uuidLoop
  simp only
  rw [foundUuid_loop, foundName_loop]
  congr 1
  · refine lastAnswer_of_forall₂ lies (fun item structured lies => by rw [lies.dataType]) ?_
    intro item structured lies member lists
    exact sameBytes_eq lies ((whole structured member).uuid lists)
  · refine lastAnswer_of_forall₂ lies (fun item structured lies => by rw [lies.dataType]) ?_
    intro item structured lies member names
    exact sameBytes_eq lies ((whole structured member).name names)

/-- No byte beyond a structure is compared exactly when all structures are long enough. -/
theorem inside_iff (yields : YieldsInOrder iterate) (present : advertisement.In memory) :
    (∀ comparison ∈ (uuidLoop iterate memory advertisement.size).comparisons,
      comparison.count ≤ comparison.item.dataLen.toNat) ↔
      ∀ structured ∈ advertisement.structures, structured.Whole := by
  have lies := lies_iterate yields present
  have made : (∀ comparison ∈ (uuidLoop iterate memory advertisement.size).comparisons,
      comparison.count ≤ comparison.item.dataLen.toNat) ↔
      ∀ item ∈ iterate memory advertisement.size, ∀ count,
        comparedBytes item.dataType = some count → count ≤ item.dataLen.toNat := by
    rw [uuidLoop, comparisons_loop]
    constructor
    · intro inside item member count compared
      refine inside ⟨item, count⟩ ?_
      rw [List.nil_append, List.mem_filterMap]
      exact ⟨item, member, by rw [compared]; rfl⟩
    · intro inside comparison member
      rw [List.nil_append, List.mem_filterMap] at member
      obtain ⟨item, member, same⟩ := member
      obtain ⟨count, compared, rfl⟩ := Option.map_eq_some_iff.mp same
      exact inside item member count compared
  rw [made]
  clear made
  generalize iterate memory advertisement.size = items at lies ⊢
  generalize advertisement.structures = structures at lies ⊢
  induction lies with
  | nil => simp
  | cons here _ ih =>
      rw [List.forall_mem_cons, List.forall_mem_cons, here.dataType, here.dataLen, whole_iff]
      exact and_congr_right' ih

theorem hasUuid_of_startsWithUuid {structured : AdStructure}
    (lists : listsServices structured.dataType = true)
    (starts : structured.startsWithUuid = true) : structured.hasUuid = true := by
  have starting := List.isPrefixOf_iff_prefix.mp starts
  have length := starting.length_le
  rw [AdStructure.hasUuid, lists, Bool.true_and, List.any_eq_true]
  refine ⟨0, List.mem_range.mpr (Nat.lt_of_lt_of_le (by decide) length), ?_⟩
  rw [Nat.mul_zero, List.drop_zero, beq_iff_eq]
  exact (List.prefix_iff_eq_take.mp starting).symm

theorem reported_true_iff {foundUuid foundName named : Bool} :
    reported foundUuid foundName = reported true named ↔ foundUuid = true ∧ foundName = named := by
  cases foundUuid <;> cases foundName <;> cases named <;> decide

/-- In every order the last list starts with the UUID exactly when all lists do, if there is
one. -/
theorem lastUuid_perm_iff (listed : advertisement.hasUuid = true) :
    (∀ permuted : List AdStructure, permuted.Perm advertisement.structures →
      lastUuid permuted = true) ↔
      ∀ structured ∈ advertisement.structures,
        listsServices structured.dataType = true → structured.startsWithUuid = true := by
  unfold lastUuid
  rw [lastAnswer_perm_iff]
  refine and_iff_left ?_
  intro none
  obtain ⟨structured, member, has⟩ := List.any_eq_true.mp listed
  rw [AdStructure.hasUuid, none structured member, Bool.false_and] at has
  exact has

/-- In every order the last local name starts like some name exactly when all names start
alike. -/
theorem lastName_perm_iff :
    (∀ permuted : List AdStructure, permuted.Perm advertisement.structures →
      lastName permuted = advertisement.hasName) ↔
      (advertisement.hasName = true → ∀ structured ∈ advertisement.structures,
        namesDevice structured.dataType = true → structured.startsWithName = true) := by
  unfold lastName
  rw [lastAnswer_perm_iff]
  cases named : advertisement.hasName with
  | true =>
      obtain ⟨structured, member, has⟩ := List.any_eq_true.mp named
      rw [Bool.and_eq_true] at has
      refine (and_iff_left ?_).trans (by simp)
      intro none
      exact (none structured member).symm.trans has.1
  | false =>
      refine iff_of_true ⟨?_, fun _ => rfl⟩ (by simp)
      intro structured member names
      have other := List.any_eq_false.mp named structured member
      rw [names, Bool.true_and] at other
      exact Bool.eq_false_iff.mpr other

/-- The result is that of the advertisement for every order of the structures exactly when the
lists and the names agree. -/
theorem reported_perm_iff :
    (∀ permuted : List AdStructure, permuted.Perm advertisement.structures →
      reported (lastUuid permuted) (lastName permuted) =
        reported advertisement.hasUuid advertisement.hasName) ↔
      (advertisement.hasUuid = true → ∀ structured ∈ advertisement.structures,
        listsServices structured.dataType = true → structured.startsWithUuid = true) ∧
      (advertisement.hasUuid = true → advertisement.hasName = true →
        ∀ structured ∈ advertisement.structures,
          namesDevice structured.dataType = true → structured.startsWithName = true) := by
  cases listed : advertisement.hasUuid with
  | true =>
      simp only [reported_true_iff, forall_and, forall_const]
      rw [lastUuid_perm_iff listed, lastName_perm_iff]
  | false =>
      refine iff_of_true ?_ ⟨by simp, by simp⟩
      intro permuted perm
      have none : lastUuid permuted = false := by
        refine lastAnswer_of_all ?_ fun _ => rfl
        intro structured member lists
        have other := List.any_eq_false.mp listed structured (perm.mem_iff.mp member)
        exact Bool.eq_false_iff.mpr fun starts =>
          other (hasUuid_of_startsWithUuid lists starts)
      rw [none]
      rfl

/-- Every order of the structures of an advertisement is an advertisement. -/
def Advertisement.reordered (advertisement : Advertisement) {permuted : List AdStructure}
    (perm : permuted.Perm advertisement.structures) : Advertisement where
  structures := permuted
  fits := by
    rw [(perm.flatMap_right AdStructure.bytes).length_eq]
    exact advertisement.fits

/-- A memory that starts with the payload. -/
theorem Advertisement.in_getD (advertisement : Advertisement) :
    advertisement.In fun index =>
      (advertisement.structures.flatMap AdStructure.bytes).getD index 0 := by
  intro index byte found
  simp only [List.getD_eq_getElem?_getD, found, Option.getD_some]

/-- For an iterator that yields the structures in order: the service is detected as it is
advertised, whatever the order of the structures and whatever lies behind the payload, and
without a look beyond a structure, exactly when the structures are long enough, and where one
list has the UUID, all lists start with it and the local names agree. -/
theorem detected_iff_uniform (yields : YieldsInOrder iterate) (present : advertisement.In memory) :
    Detected iterate advertisement memory ↔ advertisement.Uniform := by
  constructor
  · intro detected
    have whole := (inside_iff yields present).mp detected.inside
    have every := reported_perm_iff.mp fun permuted perm => by
      have others : ∀ structured ∈ permuted, structured.Whole :=
        fun structured member => whole structured (perm.mem_iff.mp member)
      have reordered := (advertisement.reordered perm).in_getD
      rw [← detected.exact, ← detected.ordered _ _ perm reordered]
      exact (checkForUuid_eq yields reordered others).symm
    exact ⟨whole, every.1, every.2⟩
  · intro uniform
    have every := reported_perm_iff.mpr ⟨uniform.uuids, uniform.names⟩
    have result := (checkForUuid_eq yields present uniform.whole).trans (every _ (.refl _))
    refine ⟨result, ?_, (inside_iff yields present).mpr uniform.whole⟩
    intro permuted other perm reordered
    rw [result, checkForUuid_eq yields reordered
      fun structured member => uniform.whole structured (perm.mem_iff.mp member)]
    exact every _ perm

/-! ## An iterator -/

/-- From length byte to length byte, until there is a zero or a structure that does not
fit. -/
def walk (memory : Memory) (advSize : UInt8) : Nat → Nat → List AdItem
  | 0, _ => []
  | fuel + 1, start =>
      let width := (memory start).toNat
      if width = 0 ∨ advSize.toNat < start + width + 1 then []
      else
        { dataType := memory (start + 1)
          dataLen := memory start - 1
          data := start + 2 } :: walk memory advSize fuel (start + width + 1)

def adIterator : AdIterator :=
  fun memory advSize => walk memory advSize advSize.toNat 0

theorem walk_eq {advSize : UInt8} {structures : List AdStructure} {fuel start : Nat}
    (last : start + (structures.flatMap AdStructure.bytes).length = advSize.toNat)
    (enough : structures.length ≤ fuel)
    (there : ∀ index byte, (structures.flatMap AdStructure.bytes)[index]? = some byte →
      memory (start + index) = byte) :
    walk memory advSize fuel start = Advertisement.located start structures := by
  have small := advSize.toNat_lt
  induction structures generalizing fuel start with
  | nil =>
      cases fuel with
      | zero => rfl
      | succ fuel =>
          have ends : start = advSize.toNat := by simpa using last
          rw [walk, if_pos (Or.inr (by omega))]
          rfl
  | cons structured structures ih =>
      have width : structured.bytes.length = structured.data.length + 2 := rfl
      rw [List.flatMap_cons, List.length_append] at last
      cases fuel with
      | zero => simp at enough
      | succ fuel =>
          have first : memory start = UInt8.ofNat (structured.data.length + 1) :=
            there 0 _ rfl
          have second : memory (start + 1) = structured.dataType := there 1 _ rfl
          have length : (memory start).toNat = structured.data.length + 1 := by
            rw [first, UInt8.toNat_ofNat', Nat.mod_eq_of_lt (by omega)]
          rw [walk, length, if_neg (by omega), Advertisement.located, second, first]
          congr 1
          · congr 1
            rw [UInt8.ofNat_add]
            simp
          · rw [show start + (structured.data.length + 1) + 1 =
              start + structured.bytes.length by omega]
            refine ih (by omega) (by simpa using enough) ?_
            intro index byte found
            rw [Nat.add_assoc]
            refine there _ byte ?_
            rw [List.flatMap_cons, List.getElem?_append_right (by omega)]
            simpa using found

theorem length_le_flatMap (structures : List AdStructure) :
    structures.length ≤ (structures.flatMap AdStructure.bytes).length := by
  induction structures with
  | nil => simp
  | cons structured structures ih =>
      have width : structured.bytes.length = structured.data.length + 2 := rfl
      rw [List.flatMap_cons, List.length_append, List.length_cons]
      omega

theorem adIterator_yieldsInOrder : YieldsInOrder adIterator := by
  intro advertisement memory present
  have size : advertisement.size.toNat =
      (advertisement.structures.flatMap AdStructure.bytes).length := by
    rw [Advertisement.size, UInt8.toNat_ofNat', Nat.mod_eq_of_lt advertisement.fits]
  refine walk_eq (by omega) (by rw [size]; exact length_le_flatMap _) ?_
  intro index byte found
  rw [Nat.zero_add]
  exact present index byte found

/-- The structures that `populate_advertising_data` puts into `adv_data`. -/
def ownAdvertisement : Advertisement where
  structures := [⟨0x01, [0x06]⟩, ⟨0x06, packetServiceUuidReversed⟩,
    ⟨0x09, Tracker.packetServiceName⟩]
  fits := by decide

/-- A repeater is detected, with its name, in whatever order the structures come. -/
theorem detected_ownAdvertisement :
    ownAdvertisement.hasUuid = true ∧ ownAdvertisement.hasName = true ∧
      Detected adIterator ownAdvertisement fun index =>
        (ownAdvertisement.structures.flatMap AdStructure.bytes).getD index 0 := by
  refine ⟨by decide, by decide,
    (detected_iff_uniform adIterator_yieldsInOrder ownAdvertisement.in_getD).mpr ⟨?_, ?_, ?_⟩⟩
  · intro structured member
    rw [whole_iff]
    revert structured
    decide
  · decide
  · decide

/-- The UUID alone in the complete list, and an empty solicitation list: the payload of a
legacy report, in 20 of its 31 bytes. -/
def twoLists : Advertisement where
  structures := [⟨0x07, packetServiceUuidReversed⟩, ⟨0x15, []⟩]
  fits := by decide

/-- The second list overwrites what the first one said, with what lies behind the payload. -/
theorem twoLists_undetected :
    (twoLists.structures.flatMap AdStructure.bytes).length ≤ 31 ∧
      ¬ ∀ (iterate : AdIterator) (advertisement : Advertisement) (memory : Memory),
        YieldsInOrder iterate → advertisement.In memory →
          Detected iterate advertisement memory := by
  refine ⟨by decide, ?_⟩
  intro always
  have detected := always adIterator twoLists _ adIterator_yieldsInOrder twoLists.in_getD
  have missed : checkForUuid adIterator (fun index =>
      (twoLists.structures.flatMap AdStructure.bytes).getD index 0) twoLists.size =
        .notFound := by decide
  have listed : twoLists.hasUuid = true := by decide
  have named : twoLists.hasName = false := by decide
  have result := missed.symm.trans detected.exact
  rw [listed, named] at result
  cases result

end BleRepeater.MainProgram
