import MeridianKafka.Probe.Protocol

/-!
# ApiVersions responses

`encodeApiVersions` writes the protocol ranges of a broker the way an ApiVersions response of
version 0 does. `parseApiVersions` accepts exactly what it writes of ranges that are well
formed, and refuses all other bytes without reading behind their end
(`parseApiVersions_exact`).

The grammar of each reading is found by the rules of `Reading.Parses`; the loop over the
entries takes an induction on their number.
-/

namespace MeridianKafka

open Framework

namespace KafkaProtocol

open BigEndian (Fits ofInt)
open Reading (Parses)

/-! ### The format -/

namespace ApiRange

def encode (range : ApiRange) : List UInt8 :=
  ofInt 2 range.key ++ (ofInt 2 range.minimum ++ ofInt 2 range.maximum)

/-- The numbers are signed 16-bit integers. -/
structure Fits (range : ApiRange) : Prop where
  key : BigEndian.Fits 2 range.key
  minimum : BigEndian.Fits 2 range.minimum
  maximum : BigEndian.Fits 2 range.maximum

/-- A range of versions, under a key. -/
structure Valid (range : ApiRange) : Prop extends range.Fits where
  nonneg : 0 ≤ range.key
  ordered : 0 ≤ range.minimum ∧ range.minimum ≤ range.maximum

/-- The entry of the map. -/
def entry (range : ApiRange) : ℕ × (ℤ × ℤ) := (range.key.toNat, (range.minimum, range.maximum))

end ApiRange

/-- The response without an error. -/
def encodeApiVersions (ranges : List ApiRange) : List UInt8 :=
  ofInt 2 0 ++ (ofInt 4 ranges.length ++ ranges.flatMap ApiRange.encode)

/-- The ranges of a broker: from one to a thousand, under distinct keys. -/
structure WellFormed (ranges : List ApiRange) : Prop where
  count : 1 ≤ ranges.length ∧ ranges.length ≤ 1000
  valid : ∀ range ∈ ranges, range.Valid
  distinct : (ranges.map ApiRange.key).Nodup

/-! ### The readings -/

theorem parses_integer (size : ℕ) :
    Parses (integer size) Raised.IsConfigurationError fun l n =>
      Fits size n ∧ l = ofInt size n := by
  have htake := Parses.take (β := UInt8)
    (KafkaProbeEngine.isConfigurationError "Kafka probe response is truncated or invalid") size
  refine (htake.bind fun bytes => .pure (BigEndian.toInt bytes)).congr fun l n => ?_
  rw [← BigEndian.toInt_eq_iff]
  constructor
  · rintro ⟨l₁, _, _, rfl, ⟨rfl, hlength⟩, rfl, rfl⟩
    rw [List.append_nil]
    exact ⟨by exact_mod_cast hlength, rfl⟩
  · rintro ⟨rfl, rfl⟩
    exact ⟨l, [], l, (List.append_nil l).symm, ⟨rfl, rfl⟩, rfl, rfl⟩

theorem parses_readRange :
    Parses readRange Raised.IsConfigurationError fun l range => range.Fits ∧ l = range.encode := by
  refine ((parses_integer 2).bind fun key => (parses_integer 2).bind fun minimum =>
    (parses_integer 2).bind fun maximum =>
      .pure (ApiRange.mk key minimum maximum)).congr fun l range => ?_
  constructor
  · rintro ⟨_, _, key, rfl, ⟨hkey, rfl⟩, _, _, minimum, rfl, ⟨hminimum, rfl⟩, _, _, maximum, rfl,
      ⟨hmaximum, rfl⟩, rfl, rfl⟩
    rw [List.append_nil]
    exact ⟨⟨hkey, hminimum, hmaximum⟩, rfl⟩
  · rintro ⟨⟨hkey, hminimum, hmaximum⟩, rfl⟩
    exact ⟨_, _, range.key, rfl, ⟨hkey, rfl⟩, _, _, range.minimum, rfl, ⟨hminimum, rfl⟩, _, [],
      range.maximum, (List.append_nil _).symm, ⟨hmaximum, rfl⟩, rfl, rfl⟩

/-- The loop reads as many ranges as it is told to, under keys that have not been seen. -/
theorem parses_readRanges (count : ℕ) (result : ApiVersions) :
    Parses (readRanges count result) Raised.IsConfigurationError fun l versions =>
      ∃ ranges : List ApiRange, ranges.length = count ∧ l = ranges.flatMap ApiRange.encode ∧
        (∀ range ∈ ranges, range.Valid ∧ result.get? range.key.toNat = none) ∧
        (ranges.map ApiRange.key).Nodup ∧
        versions.entries = result.entries ++ ranges.map ApiRange.entry := by
  induction count generalizing result with
  | zero =>
    refine (Parses.pure result).congr fun l versions => ?_
    constructor
    · rintro ⟨rfl, rfl⟩
      exact ⟨[], rfl, rfl, by simp, List.nodup_nil, (List.append_nil _).symm⟩
    · rintro ⟨ranges, hlength, rfl, -, -, hentries⟩
      obtain rfl := List.eq_nil_of_length_eq_zero hlength
      rw [List.map_nil, List.append_nil] at hentries
      exact ⟨rfl, Dict.entries_injective hentries⟩
  | succ count ih =>
    refine (parses_readRange.bind fun range => .ite
      (fun _ => .throw (KafkaProbeEngine.isConfigurationError "Kafka ApiVersions range is invalid"))
      fun _ => ih _).congr fun l versions => ?_
    constructor
    · rintro ⟨_, l, range, rfl, ⟨hfits, rfl⟩, hbranch⟩
      split at hbranch
      · exact hbranch.elim
      next hgood =>
      rw [not_or, not_or, not_lt, not_not, Option.not_isSome_iff_eq_none] at hgood
      obtain ⟨hnonneg, hfresh, hordered⟩ := hgood
      obtain ⟨ranges, rfl, rfl, hranges, hnodup, hentries⟩ := hbranch
      -- a later range is not under the key of this one
      have hother : ∀ other ∈ ranges, other.key ≠ range.key := by
        intro other hmem heq
        have hnone := (hranges other hmem).2
        rw [heq, Dict.get?_set_self] at hnone
        exact Option.some_ne_none _ hnone
      refine ⟨range :: ranges, rfl, rfl, ?_, ?_, ?_⟩
      · rw [List.forall_mem_cons]
        refine ⟨⟨⟨hfits, hnonneg, hordered⟩, hfresh⟩,
          fun other hmem => ⟨(hranges other hmem).1, ?_⟩⟩
        have hne : other.key.toNat ≠ range.key.toNat := by
          have := (hranges other hmem).1.nonneg
          have := hother other hmem
          omega
        have hnone := (hranges other hmem).2
        rwa [Dict.get?_set_of_ne _ _ hne] at hnone
      · rw [List.map_cons, List.nodup_cons]
        refine ⟨fun hmem => ?_, hnodup⟩
        obtain ⟨other, hmem, heq⟩ := List.mem_map.mp hmem
        exact hother other hmem heq
      · rw [hentries, Dict.entries_set_of_fresh hfresh, List.append_assoc]
        rfl
    · rintro ⟨ranges, hlength, rfl, hranges, hnodup, hentries⟩
      cases ranges with
      | nil => exact absurd hlength (by simp)
      | cons range ranges =>
        rw [List.forall_mem_cons] at hranges
        obtain ⟨⟨hvalid, hfresh⟩, hranges⟩ := hranges
        rw [List.map_cons, List.nodup_cons] at hnodup
        refine ⟨_, _, range, rfl, ⟨hvalid.toFits, rfl⟩, ?_⟩
        rw [if_neg (by simp [hvalid.nonneg, hvalid.ordered, hfresh])]
        refine ⟨ranges, Nat.succ.inj hlength, rfl, fun other hmem => ⟨(hranges other hmem).1, ?_⟩,
          hnodup.2, ?_⟩
        · have hne : other.key.toNat ≠ range.key.toNat := by
            have := (hranges other hmem).1.nonneg
            have := hvalid.nonneg
            have : other.key ≠ range.key := fun heq =>
              hnodup.1 (List.mem_map.mpr ⟨other, hmem, heq⟩)
            omega
          rw [Dict.get?_set_of_ne _ _ hne]
          exact (hranges other hmem).2
        · rw [hentries, Dict.entries_set_of_fresh hfresh, List.append_assoc]
          rfl

theorem parses_readApiVersions :
    Parses readApiVersions Raised.IsConfigurationError fun l versions =>
      ∃ ranges, WellFormed ranges ∧ l = encodeApiVersions ranges ∧
        versions.entries = ranges.map ApiRange.entry := by
  refine ((parses_integer 2).bind fun error => .ite
    (fun _ => .throw (KafkaProbeEngine.isConfigurationError
      "Kafka ApiVersions protocol request was rejected"))
    fun _ => (parses_integer 4).bind fun count => .ite
      (fun _ => .throw (KafkaProbeEngine.isConfigurationError "Kafka ApiVersions count is invalid"))
      fun _ => parses_readRanges count.toNat .empty).congr fun l versions => ?_
  constructor
  -- the branches that raise accept nothing
  · rintro ⟨_, l, error, rfl, ⟨-, rfl⟩, hbranch⟩
    split at hbranch
    · exact hbranch.elim
    next hzero =>
    obtain rfl := not_not.mp hzero
    obtain ⟨_, l, count, rfl, ⟨-, rfl⟩, hbranch⟩ := hbranch
    split at hbranch
    · exact hbranch.elim
    next hcount =>
    obtain ⟨hleast, hmost⟩ := not_not.mp hcount
    obtain ⟨ranges, hlength, rfl, hranges, hnodup, hentries⟩ := hbranch
    have heq : (ranges.length : ℤ) = count := by omega
    refine ⟨ranges, ⟨⟨by omega, by omega⟩, fun range hmem => (hranges range hmem).1, hnodup⟩, ?_,
      hentries⟩
    rw [encodeApiVersions, heq]
  · rintro ⟨ranges, ⟨⟨hleast, hmost⟩, hvalid, hnodup⟩, rfl, hentries⟩
    have hfits : Fits 4 (ranges.length : ℤ) := ⟨by omega, by omega⟩
    refine ⟨_, _, 0, rfl, ⟨by decide, rfl⟩, ?_⟩
    rw [if_neg (not_not.mpr rfl)]
    refine ⟨_, _, ranges.length, rfl, ⟨hfits, rfl⟩, ?_⟩
    rw [if_neg (by omega)]
    exact ⟨ranges, (Int.toNat_natCast _).symm, rfl, fun range hmem => ⟨hvalid range hmem, rfl⟩,
      hnodup, hentries⟩

/-- **ApiVersions parsing is exact.** The bytes are accepted when they are the response of
ranges that are well formed, and then the map has their entries, in their order. All other
bytes are refused with a `KafkaConfigurationError`. In either case the reader has stayed within
the bytes. -/
theorem parseApiVersions_exact (data : List UInt8) :
    (∀ versions, parseApiVersions data = .ok versions ↔
      ∃ ranges, WellFormed ranges ∧ data = encodeApiVersions ranges ∧
        versions.entries = ranges.map ApiRange.entry) ∧
      ((∃ versions, parseApiVersions data = .ok versions) ∨
        ∃ raised, parseApiVersions data = .error raised ∧ raised.IsConfigurationError) ∧
      ∃ offset ≤ data.length, (readResponse data).2 = ⟨data, offset⟩ :=
  parses_readApiVersions.run_all (KafkaProbeEngine.isConfigurationError _) data

example : parseApiVersions (encodeApiVersions [⟨0, 3, 13⟩, ⟨18, 0, 4⟩]) =
    .ok ⟨[(0, (3, 13)), (18, (0, 4))], by decide⟩ := by decide

end KafkaProtocol

end MeridianKafka
