import RondeDesFacs.Library.Paths
import RondeDesFacs.Library.Terminated
import RondeDesFacs.Web.Pictures

/-!
# Where uploads go

An upload is moved to the directory, the `numEtudiant` and the extension of the client's
file name, one after the other.  The extension is checked: it is one of four, so it
has neither a dot nor a separator, and the last component of the path always has it.
The `numEtudiant` is not checked at all, and may have components of its own.

The file is therefore a child of where the components before the last separator of
the `numEtudiant` lead, and it stays in its directory exactly if they lead back there
(`uploads_stay`).  Without a separator there are none.

There is one exception.  `move_uploaded_file` of PHP 5.5 hands the path on as a string of
C, which ends at its first zero byte.  A `numEtudiant` with such a byte, which
`stripslashes` makes of a backslash and a `0`, takes the extension away with it, and
the path is what stands before (`AboutitAvant`).

The places are those of `Paths`, below the directory `racine` of the page; on Windows
the backslash is a separator too, as far as `stripslashes` leaves any.
-/

namespace RondeDesFacs
namespace Web

open Paths Terminated

/-- What stands between the components of a path. -/
def separateur (windows : Bool) (c : UInt8) : Bool := c = 0x2F || (windows && c = 0x5C)

/-- The place of a path of the page, which ends at its first zero byte. -/
def lieuDe (windows : Bool) (racine : List Bytes) (chemin : Bytes) : List Bytes :=
  resolve (separateur windows) 0x2E racine (upTo 0 chemin)

/-- The directory of the pictures, by its components. -/
def Image.repertoire (racine : List Bytes) : Image → List Bytes
  | avatar => racine ++ [ascii "img", ascii "avatar"]
  | certif => racine ++ [ascii "img", ascii "certif"]

/-- The extension of a file name. -/
def extension (nom : Bytes) : Bytes := ((strrchr 0x2E nom).getD []).drop 1

/-- A direct child of the directory, with an extension that is allowed. -/
def Enfant (racine : List Bytes) (i : Image) (l : List Bytes) : Prop :=
  ∃ nom, l = i.repertoire racine ++ [nom] ∧ extension nom ∈ extAut

/-- The components before the last separator of the name lead back to the directory. -/
def Revient (windows : Bool) (racine : List Bytes) (i : Image) (filename : Bytes) : Prop :=
  follow 0x2E (i.repertoire racine) (parents (separateur windows) filename) = i.repertoire racine

/-- All the components before the first zero byte of the name lead to a name in the
directory, and that name ends in an extension that is allowed. -/
def AboutitAvant (windows : Bool) (racine : List Bytes) (i : Image) (filename : Bytes) : Prop :=
  ∃ nom, follow 0x2E (i.repertoire racine)
      ((upTo 0 filename).splitOnP (separateur windows)) = i.repertoire racine ++ [nom] ∧
    extension nom ∈ extAut

/-- What keeps an upload in its directory: the one, or for a name with a zero byte the
other. -/
def Reste (windows : Bool) (racine : List Bytes) (i : Image) (filename : Bytes) : Prop :=
  if 0 ∈ filename then AboutitAvant windows racine i filename
  else Revient windows racine i filename

/-! ## Extensions -/

theorem strrchr_of_notMem {c : UInt8} {b : Bytes} (h : c ∉ b) : strrchr c b = none := by
  induction b with
  | nil => rfl
  | cons x b ih =>
    rw [List.mem_cons, not_or] at h
    rw [strrchr, ih h.2, if_neg (Ne.symm h.1)]

theorem strrchr_append_cons {c : UInt8} (b : Bytes) {t : Bytes} (h : c ∉ t) :
    strrchr c (b ++ c :: t) = some (c :: t) := by
  induction b with
  | nil => rw [List.nil_append, strrchr, strrchr_of_notMem h, if_pos rfl]
  | cons x b ih => rw [List.cons_append, strrchr, ih]

/-- The extension that was appended is the extension. -/
theorem extension_append {ext : Bytes} (h : 0x2E ∉ ext) (b : Bytes) :
    extension (b ++ 0x2E :: ext) = ext := by
  rw [extension, strrchr_append_cons b h]
  rfl

/-- The checks of an upload include that of its extension. -/
theorem Fichier.ext_mem_of_valid {f : Fichier} (h : f.valid = true) : f.ext ∈ extAut := by
  unfold Fichier.valid at h
  split_ifs at h with hext
  exact hext

/-- No extension that is allowed has a dot, a separator or a zero byte, or is empty. -/
theorem extAut_simple {ext : Bytes} (h : ext ∈ extAut) (windows : Bool) :
    ext ≠ [] ∧ 0x2E ∉ ext ∧ (∀ c ∈ 0x2E :: ext, separateur windows c = false) ∧
      0 ∉ 0x2E :: ext := by
  have hall : ∀ windows : Bool, ∀ ext ∈ extAut,
      ext ≠ [] ∧ 0x2E ∉ ext ∧ (∀ c ∈ 0x2E :: ext, separateur windows c = false) ∧
        0 ∉ 0x2E :: ext := by
    decide +kernel
  exact hall windows ext h

/-- A name with such an extension is an ordinary component. -/
theorem ordinaire {ext : Bytes} (hne : ext ≠ []) (hdot : 0x2E ∉ ext) (b : Bytes) :
    b ++ 0x2E :: ext ≠ [] ∧ b ++ 0x2E :: ext ≠ [0x2E] ∧ b ++ 0x2E :: ext ≠ [0x2E, 0x2E] := by
  have hpos := List.length_pos_of_ne_nil hne
  refine ⟨by simp, fun h => ?_, fun h => ?_⟩
  · have hlen := congrArg List.length h
    simp only [List.length_append, List.length_cons, List.length_nil] at hlen
    omega
  · rcases b with _ | ⟨x, b⟩
    · rw [List.nil_append, List.cons.injEq] at h
      exact hdot (by rw [h.2]; exact List.mem_singleton_self _)
    · have hlen := congrArg List.length h
      simp only [List.length_append, List.length_cons, List.length_nil] at hlen
      omega

/-! ## Places -/

/-- A path into one of the directories starts from there. -/
theorem lieuDe_dossier (windows : Bool) (racine : List Bytes) (i : Image) (chemin : Bytes) :
    lieuDe windows racine (i.dossier ++ chemin) = lieuDe windows (i.repertoire racine) chemin := by
  have hslash : separateur windows 0x2F = true := by simp [separateur]
  have hzero : 0 ∉ i.dossier := by cases i <;> decide
  have hname : ∀ (dir : List Bytes) (c : Bytes), c ∈ [ascii "img", ascii "avatar", ascii "certif"] →
      resolve (separateur windows) 0x2E dir c = dir ++ [c] := by
    intro dir c hc
    have hsep : ∀ windows : Bool, ∀ c ∈ [ascii "img", ascii "avatar", ascii "certif"],
        (∀ x ∈ c, separateur windows x = false) ∧ c ≠ [] ∧ c ≠ [0x2E] ∧ c ≠ [0x2E, 0x2E] := by
      decide +kernel
    obtain ⟨hsep, hne, hdot, hup⟩ := hsep windows c hc
    have hresolve : resolve (separateur windows) 0x2E dir ([] ++ c) =
        enter 0x2E dir ([] ++ c) := resolve_append_of_forall [] hsep
    rw [List.nil_append] at hresolve
    rw [hresolve]
    exact enter_of_ne hne hdot hup
  have hpath : ∃ c ∈ [ascii "img", ascii "avatar", ascii "certif"],
      i.dossier ++ upTo 0 chemin = ascii "img" ++ 0x2F :: (c ++ 0x2F :: upTo 0 chemin) ∧
        i.repertoire racine = racine ++ [ascii "img"] ++ [c] := by
    cases i with
    | avatar => exact ⟨ascii "avatar", by simp, rfl, by simp [Image.repertoire]⟩
    | certif => exact ⟨ascii "certif", by simp, rfl, by simp [Image.repertoire]⟩
  obtain ⟨c, hc, hchemin, hrep⟩ := hpath
  rw [lieuDe, upTo_append_of_notMem hzero, hchemin, resolve_append_cons _ hslash,
    resolve_append_cons _ hslash, hname racine (ascii "img") (by simp), hname _ c hc, hrep, lieuDe]

section Cible

variable (windows : Bool) (racine : List Bytes) (i : Image) (d : Demande) {f : Fichier}

theorem cible_eq_lieuDe : cible (lieuDe windows racine) i d f =
    lieuDe windows (i.repertoire racine) (d.filename ++ 0x2E :: f.ext) := by
  have hnom : f.nomImage d.filename = d.filename ++ 0x2E :: f.ext := by
    rw [Fichier.nomImage, List.append_assoc]
    rfl
  rw [cible, lieu, lieuDe_dossier, hnom]

/-- **Where an upload goes**, if its name has no zero byte. -/
theorem cible_eq (hf : f.valid = true) (hzero : 0 ∉ d.filename) :
    cible (lieuDe windows racine) i d f =
      follow 0x2E (i.repertoire racine) (parents (separateur windows) d.filename) ++
        [base (separateur windows) d.filename ++ 0x2E :: f.ext] := by
  obtain ⟨hne, hdot, hsep, hext⟩ := extAut_simple (f.ext_mem_of_valid hf) windows
  have hwhole : upTo 0 (d.filename ++ 0x2E :: f.ext) = d.filename ++ 0x2E :: f.ext := by
    rw [upTo_append_of_notMem hzero, ← List.append_nil (0x2E :: f.ext),
      upTo_append_of_notMem hext, upTo_nil]
  rw [cible_eq_lieuDe, lieuDe, hwhole, resolve_append_of_forall _ hsep]
  obtain ⟨hnonempty, hself, hup⟩ := ordinaire hne hdot (base (separateur windows) d.filename)
  exact enter_of_ne hnonempty hself hup

/-- **Where an upload goes**, if its name has one: the extension is not in the path. -/
theorem cible_of_zero (hzero : 0 ∈ d.filename) :
    cible (lieuDe windows racine) i d f =
      follow 0x2E (i.repertoire racine) ((upTo 0 d.filename).splitOnP (separateur windows)) := by
  rw [cible_eq_lieuDe, lieuDe, upTo_append_of_mem hzero, resolve]

/-- An upload is a child of its directory exactly if the name leads back there. -/
theorem enfant_cible_iff (hf : f.valid = true) :
    Enfant racine i (cible (lieuDe windows racine) i d f) ↔ Reste windows racine i d.filename := by
  rw [Reste]
  split_ifs with hzero
  · rw [cible_of_zero windows racine i d hzero]
    rfl
  · rw [Enfant, cible_eq windows racine i d hf hzero, Revient]
    constructor
    · rintro ⟨nom, h, -⟩
      exact (List.append_inj' h rfl).1
    · intro h
      have hext := f.ext_mem_of_valid hf
      refine ⟨_, by rw [h], ?_⟩
      rwa [extension_append (extAut_simple hext windows).2.1]

end Cible

theorem valid_of_mem_valide {i : Image} {d : Demande} {f : Fichier} (h : f ∈ i.valide d) :
    f.valid = true :=
  (Option.filter_eq_some_iff.mp h).2

/-- **When uploads stay in their directory.** -/
theorem uploads_stay (windows : Bool) (racine : List Bytes) (d : Demande) (o : Issue) :
    (∀ i : Image, ∀ f ∈ i.valide d, i.deplace o = true →
        Enfant racine i (cible (lieuDe windows racine) i d f)) ↔
      ∀ i : Image, (i.valide d).isSome → i.deplace o = true →
        Reste windows racine i d.filename := by
  refine forall_congr' fun i => ?_
  constructor
  · intro h hsome hdeplace
    obtain ⟨f, hf⟩ := Option.isSome_iff_exists.mp hsome
    exact (enfant_cible_iff windows racine i d (valid_of_mem_valide hf)).mp (h f hf hdeplace)
  · intro h f hf hdeplace
    refine (enfant_cible_iff windows racine i d (valid_of_mem_valide hf)).mpr ?_
    exact h (Option.isSome_iff_exists.mpr ⟨f, hf⟩) hdeplace

/-- A student number that climbs out of the directory. -/
def demandeRemontee : Demande :=
  demandeDe "../x" "nom@site.fr" "secret1" "Prenom" (some (photo [1]))

/-- Its photograph goes to `img/x.jpg`. -/
theorem uploads_stay_demandeRemontee :
    ¬ ∀ i : Image, ∀ f ∈ i.valide demandeRemontee, i.deplace (issueDe 1 true) = true →
      Enfant [ascii "www"] i (cible (lieuDe false [ascii "www"]) i demandeRemontee f) := by
  intro h
  have hcible : cible (lieuDe false [ascii "www"]) .avatar demandeRemontee (photo [1]) =
      [ascii "www", ascii "img", ascii "x.jpg"] := by decide
  obtain ⟨nom, heq, -⟩ := h .avatar (photo [1]) rfl rfl
  rw [hcible] at heq
  have hlen := congrArg List.length heq
  simp [Image.repertoire] at hlen

/-! ## The rest of the site -/

/-- Without a separator a name leads nowhere else. -/
theorem reste_of_forall {windows : Bool} {filename : Bytes} (hzero : 0 ∉ filename)
    (h : ∀ c ∈ filename, separateur windows c = false) (racine : List Bytes) (i : Image) :
    Reste windows racine i filename := by
  rw [Reste, if_neg hzero, Revient, parents_of_forall h]
  rfl

/-- **Plain student numbers touch nothing but pictures.**  Outside the two directories
every file is as it was. -/
theorem deposes_of_not_enfant {srv : Serveur} {cs : Charset} {windows : Bool}
    {racine : List Bytes} {d : Demande} (hzero : 0 ∉ d.filename)
    (h : ∀ c ∈ d.filename, separateur windows c = false) (s : Site srv cs (List Bytes)) (o : Issue)
    {l : List Bytes} (hl : ∀ i : Image, ¬ Enfant racine i l) :
    deposes (lieuDe windows racine) s d o l = s.fichiers l := by
  refine deposes_of_ne _ fun i f hf _ heq => hl i ?_
  rw [← heq]
  exact (enfant_cible_iff windows racine i d (valid_of_mem_valide hf)).mpr
    (reste_of_forall hzero h racine i)

end Web
end RondeDesFacs
