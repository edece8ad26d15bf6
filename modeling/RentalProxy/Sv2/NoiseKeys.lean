import Mathlib.Logic.Function.Basic
import RentalProxy.Text

/-!
# The identity of the proxy over its restarts

A miner may pin the Noise key of the proxy, so the proxy keeps its secret in a file: it generates
one at its first boot and reads it back at the next ones.  A file that it cannot read counts as
one that is not there, and is written anew.

* `fromEnvOrGenerate` and `fromFileOrCreate` are the choice of a key at a boot, over what the file
  system does.
* `identities` are the keys of one boot after the other, on one disk.
* `identity_stable_iff` says exactly when all the boots that go to a file have a key, and
  `pinned_key_survives` what a boot has to do for it.
-/

namespace RentalProxy.Sv2

open Text

/-! ## The choice of a key -/

/-- Secret keys in base58. -/
structure SecretCodec (Key : Type) where
  /-- `Secp256k1SecretKey::from_str`. -/
  parse : String → Option Key
  /-- `String::from`. -/
  print : Key → String
  parse_print : ∀ k, parse (print k) = some k
  /-- base58 has no whitespace. -/
  print_plain : ∀ k, ∀ c ∈ (print k).toList, isWhitespace c = false
  print_ne_empty : ∀ k, print k ≠ ""

/-- How the write of a new secret ends. -/
inductive WriteResult where
  | written
  /-- The file could not be opened. -/
  | notOpened
  /-- The file was emptied, and only the first characters came after that. -/
  | cut (length : Nat)
deriving DecidableEq

/-- What is in the file after the write. -/
def WriteResult.leaves (old : Option String) (contents : String) : WriteResult → Option String
  | .written => some contents
  | .notOpened => old
  | .cut length => some (String.ofList (contents.toList.take length))

/-- The settings of a boot, and what happens at it. -/
structure Boot (Key : Type) where
  /-- `RENTAL_PROXY_SV2_SECRET`. -/
  secret : Option String
  /-- `RENTAL_PROXY_SV2_SECRET_FILE`. -/
  secretFile : Option String
  /-- A file that is there can be read, as UTF-8. -/
  readable : Bool
  /-- What `generate` would make. -/
  fresh : Key
  write : WriteResult
deriving DecidableEq

/-- The files of the machine, by their paths. -/
abbrev KeyFiles := String → Option String

variable {Key : Type} (codec : SecretCodec Key)

/-- The secret in the contents of a file. -/
def SecretCodec.persisted (contents : String) : Option Key :=
  if trim contents = "" then none else codec.parse (trim contents)

/-- `from_file_or_create`. -/
def fromFileOrCreate (boot : Boot Key) (path : String) (files : KeyFiles) : Key × KeyFiles :=
  match (if boot.readable then files path else none).bind codec.persisted with
  | some key => (key, files)
  | none => (boot.fresh, Function.update files path
      (boot.write.leaves (files path) (codec.print boot.fresh ++ "\n")))

/-- `from_env_or_generate`. -/
def fromEnvOrGenerate (boot : Boot Key) (files : KeyFiles) : Key × KeyFiles :=
  match boot.secret.bind codec.parse with
  | some key => (key, files)
  | none =>
    match boot.secretFile with
    | some path =>
      if trim path ≠ "" then fromFileOrCreate codec boot (trim path) files
      else (boot.fresh, files)
    | none => (boot.fresh, files)

/-- The boots of one machine, each with the key that it chose. -/
def identities : KeyFiles → List (Boot Key) → List (Boot Key × Key)
  | _, [] => []
  | files, boot :: boots =>
    (boot, (fromEnvOrGenerate codec boot files).1) ::
      identities (fromEnvOrGenerate codec boot files).2 boots

/-- The file that a boot goes to, if it goes to one. -/
def Boot.keyFile (boot : Boot Key) : Option String :=
  if (boot.secret.bind codec.parse).isSome then none
  else (boot.secretFile.map trim).filter fun path => decide (path ≠ "")

/-- The file at this path holds this key. -/
def Holds (files : KeyFiles) (path : String) (key : Key) : Prop :=
  (files path).bind codec.persisted = some key

variable {codec} {boot : Boot Key} {files : KeyFiles} {path : String} {key : Key}

/-! ## One boot -/

/-- A boot goes to its file, or leaves all files alone. -/
theorem fromEnvOrGenerate_cases (boot : Boot Key) (files : KeyFiles) :
    (∃ path, boot.keyFile codec = some path ∧
        fromEnvOrGenerate codec boot files = fromFileOrCreate codec boot path files) ∨
      boot.keyFile codec = none ∧ (fromEnvOrGenerate codec boot files).2 = files := by
  unfold fromEnvOrGenerate Boot.keyFile
  cases hsecret : boot.secret.bind codec.parse with
  | some key => exact Or.inr ⟨by simp, rfl⟩
  | none =>
    cases hfile : boot.secretFile with
    | none => exact Or.inr ⟨by simp, rfl⟩
    | some path =>
      by_cases hpath : trim path = ""
      · apply Or.inr
        simp [hpath]
      · exact Or.inl ⟨trim path, by simp [hpath], by simp [hpath]⟩

theorem fromEnvOrGenerate_file (h : boot.keyFile codec = some path) :
    fromEnvOrGenerate codec boot files = fromFileOrCreate codec boot path files := by
  rcases fromEnvOrGenerate_cases boot files with ⟨path', hpath, heq⟩ | ⟨hnone, _⟩
  · rw [hpath] at h
    cases h
    exact heq
  · rw [hnone] at h
    cases h

/-- A boot writes no other file than its own. -/
theorem fromEnvOrGenerate_other (h : boot.keyFile codec ≠ some path) :
    (fromEnvOrGenerate codec boot files).2 path = files path := by
  rcases fromEnvOrGenerate_cases boot files with ⟨path', hpath, heq⟩ | ⟨_, heq⟩
  · have hne : path ≠ path' := by
      intro hsame
      exact h (hsame ▸ hpath)
    rw [heq, fromFileOrCreate]
    split
    · rfl
    · exact Function.update_of_ne hne _ _
  · rw [heq]

/-- A key that is there and can be read is taken. -/
theorem fromEnvOrGenerate_found (hfile : boot.keyFile codec = some path)
    (hread : boot.readable = true) (hholds : Holds codec files path key) :
    fromEnvOrGenerate codec boot files = (key, files) := by
  rw [fromEnvOrGenerate_file hfile, fromFileOrCreate, hread, if_pos rfl,
    show (files path).bind codec.persisted = some key from hholds]

/-- The only other way to a key is to generate it. -/
theorem fromEnvOrGenerate_eq_iff (files : KeyFiles) (hfile : boot.keyFile codec = some path)
    (hfresh : boot.fresh ≠ key) :
    (fromEnvOrGenerate codec boot files).1 = key ↔
      boot.readable = true ∧ Holds codec files path key := by
  constructor
  · intro hkey
    rw [fromEnvOrGenerate_file hfile, fromFileOrCreate] at hkey
    cases hread : boot.readable with
    | false =>
      simp only [hread, Bool.false_eq_true, if_false, Option.bind_none] at hkey
      exact absurd hkey hfresh
    | true =>
      simp only [hread, if_true] at hkey
      refine ⟨rfl, ?_⟩
      cases hfound : (files path).bind codec.persisted with
      | none =>
        rw [hfound] at hkey
        exact absurd hkey hfresh
      | some found =>
        rw [hfound] at hkey
        show (files path).bind codec.persisted = some key
        rw [hfound, ← show found = key from hkey]
  · rintro ⟨hread, hholds⟩
    rw [fromEnvOrGenerate_found hfile hread hholds]

/-- A secret is read back from the line that was written. -/
theorem persisted_print (codec : SecretCodec Key) (key : Key) :
    codec.persisted (codec.print key ++ "\n") = some key := by
  have hplain := codec.print_plain key
  have hnewline : ∀ c ∈ ['\n'], isWhitespace c = true := by
    intro c hc
    rw [List.mem_singleton.mp hc]
    decide
  have htrim : trim (codec.print key ++ "\n") = codec.print key := by
    have hline : (codec.print key ++ "\n").toList = [] ++ (codec.print key).toList ++ ['\n'] := by
      simp
    rw [trim, hline, Trim.trim_surround (by simp) hnewline,
      Trim.trim_eq_self (fun c hc => hplain c (List.mem_of_mem_head? hc))
        fun c hc => hplain c (List.mem_of_mem_getLast? hc)]
    exact String.ofList_toList
  rw [SecretCodec.persisted, htrim, if_neg (codec.print_ne_empty key), codec.parse_print]

/-- After a boot that would write, its file holds its key: it was read, or it was written. -/
theorem fromEnvOrGenerate_holds (hfile : boot.keyFile codec = some path)
    (hwrite : boot.write = .written) :
    Holds codec (fromEnvOrGenerate codec boot files).2 path
      (fromEnvOrGenerate codec boot files).1 := by
  rw [fromEnvOrGenerate_file hfile, fromFileOrCreate]
  split
  · rename_i key hfound
    show (files path).bind codec.persisted = some key
    cases hread : boot.readable with
    | false => simp [hread] at hfound
    | true => simpa [hread] using hfound
  · show (Function.update files path _ path).bind codec.persisted = some boot.fresh
    rw [Function.update_self, hwrite]
    exact persisted_print codec boot.fresh

/-! ## All boots -/

/-- Over every sequence of boots, which may go to other files or to none in between.  All boots
that go to this file have this key exactly when the file holds it at first, and each of them can
read it. -/
theorem identity_stable_iff {boots : List (Boot Key)}
    (hfresh : ∀ b ∈ boots, b.fresh ≠ key) (files : KeyFiles) :
    (∀ e ∈ identities codec files boots, e.1.keyFile codec = some path → e.2 = key) ↔
      ∀ b ∈ boots, b.keyFile codec = some path →
        b.readable = true ∧ Holds codec files path key := by
  induction boots generalizing files with
  | nil => simp [identities]
  | cons boot boots ih =>
    have ih := ih fun b hb => hfresh b (List.mem_cons_of_mem boot hb)
    simp only [identities, List.forall_mem_cons, ih]
    by_cases hfile : boot.keyFile codec = some path
    · have hkey := fromEnvOrGenerate_eq_iff files hfile (hfresh boot List.mem_cons_self)
      simp only [hfile, true_implies, hkey]
      apply and_congr_right
      rintro ⟨hread, hholds⟩
      -- the files are as they were
      rw [fromEnvOrGenerate_found hfile hread hholds]
    · have hsame : Holds codec (fromEnvOrGenerate codec boot files).2 path key ↔
          Holds codec files path key := by
        unfold Holds
        rw [fromEnvOrGenerate_other hfile]
      simp only [hfile, false_implies, hsame]

/-- A key that a boot has is the one of all later boots that go to its file exactly when the file
holds it then, and none of them fails to read it.  It holds it if the write went through. -/
theorem pinned_key_survives {first : Boot Key} (hfile : first.keyFile codec = some path)
    {boots : List (Boot Key)}
    (hfresh : ∀ b ∈ boots, b.fresh ≠ (fromEnvOrGenerate codec first files).1) :
    ((∀ e ∈ identities codec (fromEnvOrGenerate codec first files).2 boots,
        e.1.keyFile codec = some path → e.2 = (fromEnvOrGenerate codec first files).1) ↔
      ∀ b ∈ boots, b.keyFile codec = some path → b.readable = true ∧
        Holds codec (fromEnvOrGenerate codec first files).2 path
          (fromEnvOrGenerate codec first files).1) ∧
      (first.write = .written → Holds codec (fromEnvOrGenerate codec first files).2 path
        (fromEnvOrGenerate codec first files).1) :=
  ⟨identity_stable_iff hfresh _, fromEnvOrGenerate_holds hfile⟩

/-- Two keys, for the concrete boots. -/
def letterCodec : SecretCodec Bool where
  parse s := if s = "a" then some true else if s = "b" then some false else none
  print key := if key then "a" else "b"
  parse_print k := by cases k <;> decide
  print_plain k c hc := by
    have hplain : ((if k then "a" else "b").toList.all fun c =>
        decide (isWhitespace c = false)) = true := by
      cases k <;> decide +kernel
    exact of_decide_eq_true (List.all_eq_true.mp hplain c hc)
  print_ne_empty := by decide

/-- A boot with this file and this fresh key, where all goes well. -/
def plainBoot (secretFile : Option String) (fresh : Bool) : Boot Bool where
  secret := none
  secretFile
  readable := true
  fresh
  write := .written

/-- The first boot generates a key, the next one has no file, and the last one reads the key. -/
theorem pinned_key_survives_restart :
    identities letterCodec (fun _ => none) [plainBoot (some "key") true, plainBoot none false,
      plainBoot (some " key ") false] = [(plainBoot (some "key") true, true),
      (plainBoot none false, false), (plainBoot (some " key ") false, true)] ∧
    ∀ e ∈ identities letterCodec
        (fromEnvOrGenerate letterCodec (plainBoot (some "key") true) fun _ => none).2
        [plainBoot none false, plainBoot (some " key ") false],
      e.1.keyFile letterCodec = some "key" → e.2 = true := by
  refine ⟨by decide +kernel, ?_⟩
  have hfile : (plainBoot (some "key") true).keyFile letterCodec = some "key" := by decide +kernel
  have hkey : (fromEnvOrGenerate letterCodec (plainBoot (some "key") true) fun _ => none).1 =
      true := by decide +kernel
  have hfresh : ∀ b ∈ [plainBoot none false, plainBoot (some " key ") false], b.fresh ≠
      (fromEnvOrGenerate letterCodec (plainBoot (some "key") true) fun _ => none).1 := by
    rw [hkey]
    decide
  obtain ⟨hstable, hholds⟩ := pinned_key_survives hfile hfresh
  rw [hkey] at hstable hholds
  apply hstable.mpr
  intro b hb _
  have hread : ∀ b ∈ [plainBoot none false, plainBoot (some " key ") false],
      b.readable = true := by decide
  exact ⟨hread b hb, hholds rfl⟩

end RentalProxy.Sv2
