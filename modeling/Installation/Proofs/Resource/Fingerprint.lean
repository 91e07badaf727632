import Installation.Proofs.Canonical.Ascii
import Installation.Proofs.Reconcile.Data

/-!
# What a fingerprint tells apart

The fingerprint of a spec is a digest of a hash of its canonical text.  Two specs whose dumps are
different have different canonical texts, unless the dumps differ in nothing but entries under
reserved names, and then their fingerprints are equal through a `Collision` of the hash or of the
digest alone: `canonical_dump_eq_iff`.  Entries under reserved names are not noticed, wherever
they are: `label_unnoticed`.
-/

namespace Installation

open Shape Value

/-! ### Collisions -/

/-- The bytes that the digest in the fingerprint of a text is of. -/
def hashDigits (cs : List Char) : List UInt8 :=
  asciiBytes (digitsOf (Murmur3.hash (asciiBytes cs)))

/-- The digits of a digest that a fingerprint shows. -/
def shownDigest (bytes : List UInt8) : List Char :=
  (Sha256.hexDigest bytes).take fingerprintLength

/-- Whether the hash or the digest in a fingerprint is the same for different arguments that two
texts give. -/
inductive Collision (cs ds : List Char) : Prop
  | hash (differ : asciiBytes cs ≠ asciiBytes ds)
    (same : Murmur3.hash (asciiBytes cs) = Murmur3.hash (asciiBytes ds))
  | digest (differ : hashDigits cs ≠ hashDigits ds)
    (same : shownDigest (hashDigits cs) = shownDigest (hashDigits ds))

theorem fingerprintOfText_eq (cs : List Char) :
  fingerprintOfText cs = String.ofList (shownDigest (hashDigits cs))
  := rfl

/-- The digits of hashes determine the hashes. -/
theorem hash_eq_of_hashDigits_eq {cs ds : List Char} (h : hashDigits cs = hashDigits ds) :
  Murmur3.hash (asciiBytes cs) = Murmur3.hash (asciiBytes ds)
  := by
  have hascii (n : Nat) : IsAscii (digitsOf n) :=
    isAscii_of_isDigit fun c => isDigit_of_mem_digitsOf
  exact digitsOf_injective (asciiBytes_injective (hascii _) (hascii _) h)

/-- Different ASCII texts have the same fingerprint through a collision alone. -/
theorem collision_of_fingerprint_eq {cs ds : List Char} (hcs : IsAscii cs) (hds : IsAscii ds)
    (hne : cs ≠ ds) (h : fingerprintOfText cs = fingerprintOfText ds) :
  Collision cs ds
  := by
  by_cases hdigits : hashDigits cs = hashDigits ds
  · apply Collision.hash
    · exact fun heq => hne (asciiBytes_injective hcs hds heq)
    · exact hash_eq_of_hashDigits_eq hdigits
  · apply Collision.digest hdigits
    rw [fingerprintOfText_eq, fingerprintOfText_eq] at h
    exact String.ofList_injective h

/-! ### Dumps -/

/-- Whether a canonical text leaves out nothing of a value. -/
def Value.ShowsAll (v : Value) : Prop := v.shown = v

namespace Resource

/-- The dump of an inert spec, and the canonical text and the fingerprint of the dump. -/
theorem exists_dump {data : Value} (hdata : data.IsJson)
    (hinert : (Schema.spec.toShape true).inert data) {name : String} {r : Resource}
    (hload : load name data = .ok r) :
  ∃ es, r.dumpSpec = .ok es ∧ (dict es).IsJson ∧
    (dict es).canonical = .ok (dict es).shown.orderedJson ∧
    r.specHash = .ok (fingerprintOfText (dict es).shown.orderedJson)
  := by
  rw [load] at hload
  cases hspec : Schema.spec.load data with
  | error fault => simp [hspec, Except.map] at hload
  | ok spec =>
    rw [hspec] at hload
    obtain rfl := Except.ok.inj hload
    obtain ⟨w, htravels⟩ := Schema.load_spec_travels hdata hinert hspec
    have hdump : (ofSpec name spec).dumpSpec = .ok w.dropNulls.entries := dumpSpec_travels htravels
    have hobject : dict w.dropNulls.entries = w.dropNulls := by
      obtain ⟨pairs, rfl⟩ := exists_object htravels (given_of_required htravels)
      rw [dropNulls_object]
      rfl
    have hjson : (dict w.dropNulls.entries).IsJson := by
      rw [hobject]
      exact (htravels.isJson (regular_spec true)).dropNulls
    refine ⟨_, hdump, hjson, canonical_eq hjson, ?_⟩
    rw [specHash, hdump]
    exact fingerprint_eq hjson

/-- Two inert specs have dumps, and these have canonical texts.  The texts are the same exactly
when what is shown of the dumps differs at most in the order of entries, so that they tell apart
all dumps of which everything is shown.  Where the texts are different, so are the fingerprints,
unless a collision makes them equal. -/
theorem canonical_dump_eq_iff {data other : Value} (hdata : data.IsJson) (hother : other.IsJson)
    (hinert : (Schema.spec.toShape true).inert data)
    (hinert' : (Schema.spec.toShape true).inert other) {name name' : String} {r s : Resource}
    (hload : load name data = .ok r) (hload' : load name' other = .ok s) :
  ∃ es fs cs ds hash hash', r.dumpSpec = .ok es ∧ s.dumpSpec = .ok fs ∧
    (dict es).canonical = .ok cs ∧ (dict fs).canonical = .ok ds ∧
    r.specHash = .ok hash ∧ s.specHash = .ok hash' ∧
    (cs = ds ↔ Alike (dict es).shown (dict fs).shown) ∧
    ((dict es).ShowsAll → (dict fs).ShowsAll → (cs = ds ↔ Alike (dict es) (dict fs))) ∧
    (cs = ds → hash = hash') ∧ (cs ≠ ds → hash = hash' → Collision cs ds)
  := by
  obtain ⟨es, hes, hjson, hcanonical, hhash⟩ := exists_dump hdata hinert hload
  obtain ⟨fs, hfs, hjson', hcanonical', hhash'⟩ := exists_dump hother hinert' hload'
  have hiff := orderedJson_eq_iff hjson.shown hjson'.shown
  refine ⟨es, fs, _, _, _, _, hes, hfs, hcanonical, hcanonical', hhash, hhash', hiff, ?_, ?_, ?_⟩
  · intro hall hall'
    rw [hiff, hall, hall']
  · exact fun h => by rw [h]
  · intro hne
    exact collision_of_fingerprint_eq (isAscii_orderedJson hjson.shown)
      (isAscii_orderedJson hjson'.shown) hne

/-- A spec with the given labels. -/
def labelledSpec (labels : List (String × Value)) : Value :=
  object [("resourceLabels", object labels)]

theorem labelledSpec_isJson {labels : List (String × Value)}
    (distinct : (labels.map Prod.fst).Nodup) (h : ∀ p ∈ labels, p.2.IsJson) :
  (labelledSpec labels).IsJson
  := by
  simpa [labelledSpec, isJson_object, distinct] using fun name v => h (name, v)

/-- A further label makes another canonical text. -/
theorem canonical_dump_eq_iff_labelled :
  ∃ r s es fs cs ds, load "chat" (labelledSpec [("team", .text "7")]) = .ok r ∧
    load "chat" (labelledSpec []) = .ok s ∧ r.dumpSpec = .ok es ∧ s.dumpSpec = .ok fs ∧
    (dict es).canonical = .ok cs ∧ (dict fs).canonical = .ok ds ∧
    (cs = ds ↔ Alike (dict es) (dict fs)) ∧ cs ≠ ds
  := by
  have hloaded : ∃ r es cs, load "chat" (labelledSpec [("team", .text "7")]) = .ok r ∧
      r.dumpSpec = .ok es ∧ (dict es).ShowsAll ∧ (dict es).canonical = .ok cs ∧ cs.length = 66 :=
    ⟨_, _, _, rfl, rfl, rfl, rfl, rfl⟩
  have hplain : ∃ s fs ds, load "chat" (labelledSpec []) = .ok s ∧ s.dumpSpec = .ok fs ∧
      (dict fs).ShowsAll ∧ (dict fs).canonical = .ok ds ∧ ds.length = 55 :=
    ⟨_, _, _, rfl, rfl, rfl, rfl, rfl⟩
  obtain ⟨r, es, cs, hr, hes, hall, hcs, hlength⟩ := hloaded
  obtain ⟨s, fs, ds, hs, hfs, hall', hds, hlength'⟩ := hplain
  obtain ⟨es', fs', cs', ds', -, -, hes', hfs', hcs', hds', -, -, -, hiff, -⟩ :=
    canonical_dump_eq_iff (labelledSpec_isJson (by simp) (by simp [IsJson]))
      (labelledSpec_isJson (by simp) (by simp)) (by decide) (by decide) hr hs
  obtain rfl := Except.ok.inj (hes.symm.trans hes')
  obtain rfl := Except.ok.inj (hfs.symm.trans hfs')
  obtain rfl := Except.ok.inj (hcs.symm.trans hcs')
  obtain rfl := Except.ok.inj (hds.symm.trans hds')
  refine ⟨r, s, es, fs, cs, ds, hr, hs, hes, hfs, hcs, hds, hiff hall hall', ?_⟩
  rintro rfl
  rw [hlength] at hlength'
  contradiction

/-- A label under a reserved name makes the same canonical text and the same fingerprint as no
label at all. -/
theorem label_unnoticed :
  (labelledSpec [("py/id", .text "7")]).IsJson ∧ (labelledSpec []).IsJson ∧
  (Schema.spec.toShape true).inert (labelledSpec [("py/id", .text "7")]) ∧
  (Schema.spec.toShape true).inert (labelledSpec []) ∧
  ∃ r s es fs, load "chat" (labelledSpec [("py/id", .text "7")]) = .ok r ∧
    load "chat" (labelledSpec []) = .ok s ∧ r.dumpSpec = .ok es ∧ s.dumpSpec = .ok fs ∧
    ¬Alike (dict es) (dict fs) ∧ (dict es).canonical = (dict fs).canonical ∧
    r.specHash = s.specHash
  := by
  have hjson : (labelledSpec [("py/id", .text "7")]).IsJson :=
    labelledSpec_isJson (by simp) (by simp [IsJson])
  have hplain : (labelledSpec []).IsJson := labelledSpec_isJson (by simp) (by simp)
  refine ⟨hjson, hplain, by decide, by decide, ?_⟩
  have hloads : ∃ r s es fs, load "chat" (labelledSpec [("py/id", .text "7")]) = .ok r ∧
      load "chat" (labelledSpec []) = .ok s ∧ r.dumpSpec = .ok es ∧ s.dumpSpec = .ok fs ∧
      (dict es).shown = (dict fs).shown ∧ (dict es).orderedJson.length = 67 ∧
      (dict fs).orderedJson.length = 55 :=
    ⟨_, _, _, _, rfl, rfl, rfl, rfl, rfl, rfl, rfl⟩
  obtain ⟨r, s, es, fs, hr, hs, hes, hfs, hshown, hlength, hlength'⟩ := hloads
  obtain ⟨es', hes', hdump, hcs, hhash⟩ := exists_dump hjson (by decide) hr
  obtain ⟨fs', hfs', -, hds, hhash'⟩ := exists_dump hplain (by decide) hs
  obtain rfl := Except.ok.inj (hes.symm.trans hes')
  obtain rfl := Except.ok.inj (hfs.symm.trans hfs')
  refine ⟨r, s, es, fs, hr, hs, hes, hfs, ?_, ?_, ?_⟩
  · intro h
    rw [h.orderedJson_eq hdump, hlength'] at hlength
    contradiction
  · rw [hcs, hds, hshown]
  · rw [hhash, hhash', hshown]

end Resource

end Installation
