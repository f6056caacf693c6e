import Awaitless.Proofs.Build
import Awaitless.Proofs.CommandLine.Arguments
import Awaitless.Proofs.CommandLine.Reading

/-!
# Runs that write chunks back where they came from

Such a run writes along the paths that it has read: a path leads to a file before the first write,
and writing to a file turns nothing into a file, a folder or a link, so it leads there until the
end. Every write is then a change of contents (`FileTree.mapFiles`), and a row of them leaves each
file with what the last path that leads there has brought.

* `leadsTo_inside` — the path of a file in a folder leads to this file.
* `run_storeChunk` — writing a chunk back changes the content of one file.
* `WritesAlong`, `run_forM_storeChunk` — writing chunks back, one after the other.
* `Overwrites` — what this amounts to where no chunk is a link.
* `Invocation.run_eq_of_built` — what a run leaves.
* `runAt_inPlace` — what such a run reads, how it ends, and what it leaves.
* `runAt_inPlace_exceptions` — arguments that ask for no run, names that are no texts, and links.
-/

namespace Awaitless.CommandLine

open FileTree
open RawText (stay back slash)

/-! ## Paths of chunks -/

/-- A path inside of a folder goes on behind a slash. -/
theorem exists_inside_eq (folder name : RawText) :
    ∃ before, inside folder name = before ++ slash :: name ∧ before.steps = folder.steps := by
  unfold inside
  split
  · rename_i hlast
    obtain ⟨before, rfl⟩ := List.getLast?_eq_some_iff.mp hlast
    have hsteps := RawText.steps_append before []
    exact ⟨before, by simp, by rw [hsteps]; exact (List.append_nil _).symm⟩
  · exact ⟨folder, rfl, rfl⟩

/-- The path of a chunk has the steps of the folder first. -/
theorem steps_inside (folder name : RawText) :
    (inside folder name).steps = folder.steps ++ name.steps := by
  obtain ⟨before, hinside, hbefore⟩ := exists_inside_eq folder name
  rw [hinside, RawText.steps_append, hbefore]

/-- A path in a folder starts where the path of the folder starts. -/
theorem start_inside {folder : RawText} (h : folder ≠ []) (here : FileTree.Place) (name : RawText) :
    start here (inside folder name) = start here folder := by
  unfold inside
  split
  · exact start_append h here name
  · exact start_append h here _

/-- A path that ends in names does not have to lead to a folder. -/
theorem namesFolder_inside (folder : RawText) {rest : FileTree.Place} (hne : rest ≠ [])
    (hrest : ∀ s ∈ rest, IsEntryName s) :
    (inside folder (pathTo rest)).namesFolder = false := by
  have hname := hrest _ (List.getLast_mem hne)
  have hlast := getLast?_pathTo_ne hrest
  have hpath : pathTo rest ≠ [] := fun hempty => by
    have hsteps := steps_pathTo hne hrest
    rw [hempty] at hsteps
    exact hne hsteps.symm
  have hslash : (inside folder (pathTo rest)).getLast? ≠ some slash := by
    obtain ⟨before, hinside, -⟩ := exists_inside_eq folder (pathTo rest)
    rw [hinside, List.append_cons, List.getLast?_append_of_ne_nil _ hpath]
    exact hlast
  rw [RawText.namesFolder, steps_inside, steps_pathTo hne hrest,
    List.getLast?_append_of_ne_nil _ hne, List.getLast?_eq_some_getLast hne, Bool.or_eq_false_iff]
  exact ⟨beq_eq_false_iff_ne.mpr hslash, by simp [hname.ne_stay, hname.ne_back]⟩

section files

variable {t : FileTree} {here place rest : FileTree.Place} {folder : RawText}
  (hfolder : folder ≠ []) (hleads : t.LeadsTo here folder place) (hne : rest ≠ [])
  (hrest : ∀ s ∈ rest, IsEntryName s)
include hfolder hleads hne hrest

/-- The path of a file in the folder leads to this file. -/
theorem leadsTo_inside {content : ByteArray}
    (hfile : t.get? (place ++ rest) = some (.file content)) :
    t.LeadsTo here (inside folder (pathTo rest)) (place ++ rest) := by
  unfold LeadsTo
  rw [start_inside hfolder, steps_inside, steps_pathTo hne hrest]
  exact locate_append hleads hrest hfile nofun

/-- All folders on the way to what stands in the folder are there. -/
theorem makeFolders_inside {u : FileTree} (hget : t.get? (place ++ rest) = some u) :
    t.makeFolders here (inside folder (pathTo rest)) = .ok t := by
  have hsplit := List.dropLast_append_getLast hne
  rw [← hsplit, ← List.append_assoc] at hget
  obtain ⟨entries, hlast⟩ := exists_folder_of_get? hget
  refine makeFolders_eq_self ?_ hlast
  rw [start_inside hfolder, steps_inside, steps_pathTo hne hrest,
    List.dropLast_append_of_ne_nil hne]
  exact locate_append hleads (fun s hs => hrest s (List.dropLast_subset _ hs)) hlast nofun

end files

/-! ## Writing -/

/-- Where a chunk of a folder is written, given the path of the folder. -/
def chunkPath (folder : RawText) (c : OutputChunk) : RawText :=
  inside folder (.ofString c.name)

/-- A change that succeeds leaves the tree that it results in. -/
theorem run_change {problem : Obstacle → FileProblem} {f : FileTree → Except Obstacle FileTree}
    {t t' : FileTree} (h : f t = .ok t') : (change problem f).run t = .ok () t' := by
  unfold change
  simp only [EStateM.run_bind, EStateM.run_get, h]
  rfl

/-- A chunk can be written back to a file: it has its name from a leaf of the folder, and its path
leads to the file. -/
structure Writable (t : FileTree) (here place : FileTree.Place) (folder : RawText)
    (c : OutputChunk) (target : FileTree.Place) : Prop where
  exists_leaf : ∃ rest, .ofString c.name = pathTo rest ∧ t.HasLeaf (place ++ rest) ∧ rest ≠ [] ∧
    ∀ s ∈ rest, IsEntryName s
  leadsTo : t.LeadsTo here (chunkPath folder c) target
  exists_file : ∃ old, t.get? target = some (.file old)

/-- Other contents leave a chunk writable. -/
theorem Writable.mapFiles {t : FileTree} {here place target : FileTree.Place} {folder : RawText}
    {c : OutputChunk} (h : Writable t here place folder c target)
    (f : FileTree.Place → ByteArray → ByteArray) :
    Writable (t.mapFiles f) here place folder c target := by
  obtain ⟨⟨rest, hname, hleaf, hne, hrest⟩, hleads, old, hfile⟩ := h
  refine ⟨⟨rest, hname, ?_, hne, hrest⟩, leadsTo_mapFiles.mpr hleads, f target old, ?_⟩
  · rcases hleaf with ⟨content, hget⟩ | ⟨path, hget⟩
    · refine .inl ⟨f (place ++ rest) content, ?_⟩
      rw [get?_mapFiles, hget, Option.map_some, FileTree.mapFiles, List.append_nil]
    · refine .inr ⟨path, ?_⟩
      rw [get?_mapFiles, hget, Option.map_some, FileTree.mapFiles]
  · rw [get?_mapFiles, hfile, Option.map_some, FileTree.mapFiles, List.append_nil]

/-- Writing a chunk back changes the content of one file. -/
theorem run_storeChunk {t : FileTree} (ht : t.WellFormed) {here place target : FileTree.Place}
    {folder : RawText} (hfolder : folder ≠ []) (hleads : t.LeadsTo here folder place)
    {c : OutputChunk} (h : Writable t here place folder c target) :
    (storeChunk here folder c).run t = .ok () (t.mapFiles fun p content =>
      if p = target then c.text.toUTF8 else content) := by
  obtain ⟨⟨rest, hname, hleaf, hne, hrest⟩, htarget, old, hfile⟩ := h
  obtain ⟨u, hget⟩ : ∃ u, t.get? (place ++ rest) = some u := by
    rcases hleaf with ⟨_, hget⟩ | ⟨_, hget⟩ <;> exact ⟨_, hget⟩
  have hfolders := makeFolders_inside hfolder hleads hne hrest hget
  have hends := namesFolder_inside folder hne hrest
  unfold chunkPath at htarget
  rw [hname] at htarget
  rw [storeChunk, hname, EStateM.run_bind, run_change hfolders]
  exact run_change (write_eq_mapFiles ht htarget hends hfile _)

/-- What files hold after chunks of a folder have been written along their paths, one after the
other: the last path that leads to a file decides, and where none leads, all is as it was. -/
structure WritesAlong (t : FileTree) (here : FileTree.Place) (folder : RawText)
    (chunks : List OutputChunk) (f : FileTree.Place → ByteArray → ByteArray) : Prop where
  written : ∀ before c after target, chunks = before ++ c :: after →
    t.LeadsTo here (chunkPath folder c) target →
    (∀ c' ∈ after, ¬ t.LeadsTo here (chunkPath folder c') target) →
    ∀ old, f target old = c.text.toUTF8
  kept : ∀ p, (∀ c ∈ chunks, ¬ t.LeadsTo here (chunkPath folder c) p) → ∀ old, f p old = old

section writes

variable {t : FileTree} {here place target : FileTree.Place} {folder : RawText} {c : OutputChunk}
  {chunks : List OutputChunk} {f : FileTree.Place → ByteArray → ByteArray}

/-- Where nothing is written, contents stay. -/
theorem WritesAlong.nil (t : FileTree) (here : FileTree.Place) (folder : RawText) :
    WritesAlong t here folder [] fun _ old => old := by
  constructor
  · intro before c after target hchunks
    exact absurd hchunks (by simp)
  · exact fun _ _ _ => rfl

/-- A chunk is written before others, which may write over it. -/
theorem WritesAlong.cons (h : WritesAlong t here folder chunks f)
    (htarget : t.LeadsTo here (chunkPath folder c) target) :
    WritesAlong t here folder (c :: chunks) fun p old =>
      f p (if p = target then c.text.toUTF8 else old) := by
  constructor
  · intro before c' after target' hchunks hleads hafter old
    rcases List.cons_eq_append_iff.mp hchunks with ⟨rfl, hhead⟩ | ⟨before', rfl, htail⟩
    · -- the first chunk is the last one that leads there
      obtain ⟨rfl, rfl⟩ := List.cons.inj hhead
      rw [if_pos (hleads.unique htarget), h.kept _ hafter]
    · exact h.written before' c' after target' htail hleads hafter _
  · intro p hp old
    obtain ⟨hc, hchunks⟩ := List.forall_mem_cons.mp hp
    have hother : p ≠ target := by
      rintro rfl
      exact hc htarget
    rw [if_neg hother, h.kept p hchunks]

/-- Chunks are written back one after the other. -/
theorem run_forM_storeChunk (hfolder : folder ≠ []) (ht : t.WellFormed)
    (hleads : t.LeadsTo here folder place)
    (hwritable : ∀ c ∈ chunks, ∃ target, Writable t here place folder c target) :
    ∃ f, WritesAlong t here folder chunks f ∧
      (chunks.forM (storeChunk here folder)).run t = .ok () (t.mapFiles f) := by
  induction chunks generalizing t with
  | nil =>
    refine ⟨_, .nil t here folder, ?_⟩
    rw [mapFiles_eq_self t fun _ _ => rfl]
    rfl
  | cons c chunks ih =>
    obtain ⟨⟨target, hc⟩, hchunks⟩ := List.forall_mem_cons.mp hwritable
    have hfirst := run_storeChunk ht hfolder hleads hc
    generalize hoverwrite : (fun p content => if p = target then c.text.toUTF8 else content :
        FileTree.Place → ByteArray → ByteArray) = overwrite at hfirst
    -- the paths of the other chunks lead where they led before
    obtain ⟨f, hf, hrest⟩ := ih (ht.mapFiles overwrite) (leadsTo_mapFiles.mpr hleads)
      fun c' hc' => (hchunks c' hc').imp fun _ h => h.mapFiles overwrite
    have hf' : WritesAlong t here folder chunks f := by
      obtain ⟨hwritten, hkept⟩ := hf
      simp only [leadsTo_mapFiles] at hwritten hkept
      exact ⟨hwritten, hkept⟩
    refine ⟨fun p old => f p (overwrite p old), ?_, ?_⟩
    · subst hoverwrite
      exact hf'.cons hc.leadsTo
    · show (storeChunk here folder c >>= fun _ => chunks.forM (storeChunk here folder)).run t = _
      rw [EStateM.run_bind, hfirst]
      dsimp only
      rw [hrest, mapFiles_mapFiles]

/-- What files hold after chunks that are no links have been written back into the folder at a
place: the files of the chunks hold their texts, and all others what they held. -/
structure Overwrites (place : FileTree.Place) (chunks : List OutputChunk)
    (f : FileTree.Place → ByteArray → ByteArray) : Prop where
  written : ∀ c ∈ chunks, ∀ old, f (place ++ (RawText.ofString c.name).steps) old = c.text.toUTF8
  kept : ∀ p, (∀ c ∈ chunks, p ≠ place ++ (RawText.ofString c.name).steps) → ∀ old, f p old = old

/-- Where every path leads to a file of its own, every file holds what was written to it. -/
theorem WritesAlong.overwrites (h : WritesAlong t here folder chunks f)
    (hnodup : (chunks.map fun c => (RawText.ofString c.name).steps).Nodup)
    (hleads : ∀ c ∈ chunks, t.LeadsTo here (chunkPath folder c)
      (place ++ (RawText.ofString c.name).steps)) : Overwrites place chunks f := by
  constructor
  · intro c hc old
    obtain ⟨before, after, rfl⟩ := List.append_of_mem hc
    refine h.written before c after _ rfl (hleads c hc) (fun c' hc' hleads' => ?_) old
    -- a later chunk that leads there would have the same name
    have hsame := List.append_cancel_left
      (hleads'.unique (hleads c' (List.mem_append_right _ (List.mem_cons_of_mem _ hc'))))
    rw [List.map_append, List.map_cons, List.nodup_append] at hnodup
    exact (List.nodup_cons.mp hnodup.2.1).1
      (hsame ▸ List.mem_map_of_mem (f := fun c => (RawText.ofString c.name).steps) hc')
  · intro p hp old
    exact h.kept p (fun c hc hleads' => hp c hc (hleads'.unique (hleads c hc))) old

end writes

/-! ## Runs -/

/-- The chunks of a folder can be written back where they came from. -/
theorem AreChunksOf.writable {t : FileTree} (ht : t.WellFormed) {here place : FileTree.Place}
    {folder : RawText} {chunks : List Chunk} (h : AreChunksOf t here folder place chunks)
    {c : OutputChunk} (hc : c.name ∈ chunks.map (·.name)) :
    ∃ target, Writable t here place folder c target := by
  obtain ⟨c', hc', hname⟩ := List.mem_map.mp hc
  obtain ⟨rest, hleaf, hchunk, hpath, target, content, hleads, hfile, -⟩ := (h.mem_iff c').mp hc'
  rw [hname] at hpath
  have hrest := (steps_pathTo_of_hasLeaf ht hleaf hchunk).1
  refine ⟨target, ⟨rest, hpath, hleaf, hchunk.ne_nil, hrest⟩, ?_, content, hfile⟩
  unfold chunkPath
  rwa [hpath]

/-- Output chunks have the names of the chunks, so they stand at distinct places too. -/
theorem AreChunksOf.nodup_output {t : FileTree} {here place : FileTree.Place} {folder : RawText}
    {chunks : List Chunk} (h : AreChunksOf t here folder place chunks) {output : List OutputChunk}
    (hnames : output.map (·.name) = chunks.map (·.name)) {p : OutputChunk → Bool} :
    ((output.filter p).map fun c => (RawText.ofString c.name).steps).Nodup := by
  have hall := congrArg (List.map fun name => (RawText.ofString name).steps) hnames
  rw [List.map_map, List.map_map] at hall
  have hnodup : (output.map fun c => (RawText.ofString c.name).steps).Nodup :=
    hall ▸ h.nodup_steps
  exact hnodup.sublist (List.filter_sublist.map _)

/-- If the chunks are files, their paths lead to these files. -/
theorem Writable.leadsTo_file {t : FileTree} {here place target : FileTree.Place} {folder : RawText}
    {c : OutputChunk} (h : Writable t here place folder c target) (hfolder : folder ≠ [])
    (hleads : t.LeadsTo here folder place)
    (hlink : ∀ path, t.get? (place ++ (RawText.ofString c.name).steps) ≠ some (.link path)) :
    t.LeadsTo here (chunkPath folder c) (place ++ (RawText.ofString c.name).steps) := by
  obtain ⟨⟨rest, hname, hleaf, hne, hrest⟩, -, -⟩ := h
  unfold chunkPath
  rw [hname, steps_pathTo hne hrest] at hlink ⊢
  rcases hleaf with ⟨content, hfile⟩ | ⟨path, hpath⟩
  · exact leadsTo_inside hfolder hleads hne hrest hfile
  · exact absurd hpath (hlink path)

namespace Invocation

variable {i : Invocation} {here : FileTree.Place} {t : FileTree}

/-- If building fails, the run fails, and nothing has been written. -/
theorem run_eq_of_not_built {chunks : List Chunk} {problems : List Problem}
    (hchunks : chunksIn t here i.folder = .ok chunks)
    (hproblems : transform i.settings chunks = .error problems) :
    i.run here t = ⟨.failed (problems.map Problem.chain), t⟩ := by
  unfold run
  rw [hchunks]
  dsimp only
  rw [hproblems]

/-- Without another target, only transformed chunks are written. -/
theorem written_eq_filter (htarget : i.target = none) (output : Output) :
    i.written output = output.chunks.filter (·.transformed) := by
  unfold written
  rw [htarget]
  simp

/-- Storing is writing the transformed chunks back, one after the other, and nothing else. -/
theorem run_store (htarget : i.target = none) (hreport : i.report = none) (output : Output)
    {t' : FileTree}
    (hforM : ((output.chunks.filter (·.transformed)).forM (storeChunk here i.folder)).run t =
      .ok () t') : (i.store here output).run t = .ok () t' := by
  unfold store
  rw [written_eq_filter htarget, htarget, hreport, Option.getD_none, EStateM.run_bind, hforM]
  rfl

/-- If both succeed, the run ends well, and has written the transformed chunks back. -/
theorem run_eq_of_built (htarget : i.target = none) (hreport : i.report = none)
    (hfolder : i.folder ≠ []) (ht : t.WellFormed) {chunks : List Chunk} {output : Output}
    (hchunks : chunksIn t here i.folder = .ok chunks)
    (houtput : transform i.settings chunks = .ok output) :
    ∃ place f, t.LeadsTo here i.folder place ∧
      WritesAlong t here i.folder (output.chunks.filter (·.transformed)) f ∧
      ((∀ c ∈ output.chunks.filter (·.transformed), ∀ path,
          t.get? (place ++ (RawText.ofString c.name).steps) ≠ some (.link path)) →
        Overwrites place (output.chunks.filter (·.transformed)) f) ∧
      i.run here t = ⟨.finished (i.tell output), t.mapFiles f⟩ := by
  obtain ⟨place, entries, hleads, -, hare⟩ := (chunksIn_eq_ok_iff ht).mp hchunks
  obtain ⟨compiled, hbuild⟩ := transform_eq_ok_iff.mp houtput
  obtain ⟨hnames, -⟩ := hbuild.names_chunks
  have hwritable : ∀ c ∈ output.chunks.filter (·.transformed),
      ∃ target, Writable t here place i.folder c target := fun c hc =>
    hare.writable ht (hnames ▸ List.mem_map_of_mem (List.mem_filter.mp hc).1)
  obtain ⟨f, hf, hforM⟩ := run_forM_storeChunk hfolder ht hleads hwritable
  refine ⟨place, f, hleads, hf, fun hlink => ?_, ?_⟩
  · -- no chunk is a link: each path leads to the file of its own chunk
    refine hf.overwrites (hare.nodup_output hnames) fun c hc => ?_
    obtain ⟨target, hc'⟩ := hwritable c hc
    exact hc'.leadsTo_file hfolder hleads (hlink c hc)
  · unfold run
    rw [hchunks]
    dsimp only
    rw [houtput]
    dsimp only
    rw [run_store htarget hreport output hforM]

end Invocation

/-- A run into no other folder and without a report reads exactly the chunks below its folder, in
the order of their places, however folders are listed. If it cannot read or build them, it leaves
all files as they are; it breaks off exactly where the first chunk without a name is read. Otherwise
it replaces the contents of the files that the paths of transformed chunks lead to, and nothing
else; unless a chunk is a link, these are the files of the chunks. -/
theorem runAt_inPlace {arguments : List RawText} {i : Invocation}
    (hrun : Command.ofArguments arguments = .ok (.run i)) (htarget : i.target = none)
    (hreport : i.report = none) {t : FileTree} (ht : t.WellFormed) (here : FileTree.Place) :
    (∀ chunks, chunksIn t here i.folder = .ok chunks ↔
      ∃ place entries, t.LeadsTo here i.folder place ∧ t.get? place = some (.folder entries) ∧
        AreChunksOf t here i.folder place chunks) ∧
    (∀ place rest content, t.LeadsTo here i.folder place → rest ≠ [] →
      t.get? (place ++ rest) = some (.file content) →
      t.LeadsTo here (inside i.folder (pathTo rest)) (place ++ rest)) ∧
    (∀ t', t'.WellFormed → t.Agrees t' → chunksIn t' here i.folder = chunksIn t here i.folder) ∧
    (∀ p, chunksIn t here i.folder = .error (.problem p) →
      (runAt here arguments t).1.exitCode = 1 ∧ (runAt here arguments t).2 = t) ∧
    (∀ name, (chunksIn t here i.folder = .error (.unnamed name) ↔
        ∃ place rest, t.LeadsTo here i.folder place ∧ BreaksOff t here i.folder place rest ∧
          name = pathTo rest) ∧
      (chunksIn t here i.folder = .error (.unnamed name) →
        (runAt here arguments t).1.exitCode = 101 ∧ (runAt here arguments t).2 = t)) ∧
    (∀ chunks problems, chunksIn t here i.folder = .ok chunks →
      transform i.settings chunks = .error problems →
      (runAt here arguments t).1.exitCode = 1 ∧ (runAt here arguments t).2 = t) ∧
    (∀ chunks output, chunksIn t here i.folder = .ok chunks →
      transform i.settings chunks = .ok output →
      output.chunks.map (·.name) = chunks.map (·.name) ∧
      (runAt here arguments t).1.exitCode = 0 ∧
      ∃ place f, t.LeadsTo here i.folder place ∧
        WritesAlong t here i.folder (output.chunks.filter (·.transformed)) f ∧
        ((∀ c ∈ output.chunks.filter (·.transformed), ∀ path,
            t.get? (place ++ (RawText.ofString c.name).steps) ≠ some (.link path)) →
          Overwrites place (output.chunks.filter (·.transformed)) f) ∧
        (runAt here arguments t).2 = t.mapFiles f) := by
  have houtcome : runAt here arguments t = (.ended (i.run here t).ending, (i.run here t).tree) := by
    unfold runAt
    rw [hrun]
  have hfolder := Command.folder_ne_empty hrun
  refine ⟨fun chunks => chunksIn_eq_ok_iff ht, fun place rest content hleads hne hfile => ?_,
    fun t' ht' hagree => (chunksIn_congr ht ht' hagree).symm, fun p hstop => ?_,
    fun name => ⟨chunksIn_eq_unnamed_iff ht, fun hstop => ?_⟩,
    fun chunks problems hchunks hproblems => ?_,
    fun chunks output hchunks houtput => ?_⟩
  · -- a path that names a file leads to it
    have hnames := (ht.of_get? hfile).1
    exact leadsTo_inside hfolder hleads hne
      (fun s hs => hnames s (List.mem_append_right _ hs)) hfile
  · -- a chunk that cannot be read ends the run before anything is written
    rw [houtcome, Invocation.run, hstop]
    exact ⟨rfl, rfl⟩
  · rw [houtcome, Invocation.run, hstop]
    exact ⟨rfl, rfl⟩
  · rw [houtcome, Invocation.run_eq_of_not_built hchunks hproblems]
    exact ⟨rfl, rfl⟩
  · obtain ⟨compiled, hbuild⟩ := transform_eq_ok_iff.mp houtput
    obtain ⟨place, f, hleads, hf, hfiles, hfinished⟩ :=
      Invocation.run_eq_of_built htarget hreport hfolder ht hchunks houtput
    rw [houtcome, hfinished]
    exact ⟨hbuild.names_chunks.1, rfl, place, f, hleads, hf, hfiles, rfl⟩

/-- Chunks in nested folders, between other files. -/
def nestedChunks : FileTree :=
  .folder [(.ofString "main.js", .file "start();".toUTF8), (.ofString "dist", .folder [
    (.ofString "lib", .folder [(.ofString "b.mjs", .file "export let b = 1;".toUTF8)]),
    (.ofString "notes.txt", .file "await".toUTF8),
    (.ofString "a.js", .file "await 1;".toUTF8)])]

theorem chunksIn_nestedChunks : chunksIn nestedChunks [] (.ofString "dist") =
    .ok [⟨"a.js", "await 1;"⟩, ⟨"lib/b.mjs", "export let b = 1;"⟩] := by
  let entries : List (RawText × FileTree) := [
    (.ofString "lib", .folder [(.ofString "b.mjs", .file "export let b = 1;".toUTF8)]),
    (.ofString "notes.txt", .file "await".toUTF8), (.ofString "a.js", .file "await 1;".toUTF8)]
  let found : List FileTree.Place :=
    [[.ofString "a.js"], [.ofString "lib", .ofString "b.mjs"]]
  have hfolder : nestedChunks.folderAt [] (.ofString "dist") = .ok entries := rfl
  have hwalk : chunkPlacesBelow [([], entries)] = found := by decide +kernel
  have hread : found.mapM (chunkAt nestedChunks [] (.ofString "dist")) =
      .ok [⟨"a.js", "await 1;"⟩, ⟨"lib/b.mjs", "export let b = 1;"⟩] := by decide +kernel
  unfold chunksIn
  rw [hfolder]
  show (chunkPlaces entries).mapM (chunkAt nestedChunks [] (.ofString "dist")) = _
  -- what the walk finds is in order already
  rw [chunkPlaces, hwalk, List.mergeSort_of_pairwise (by decide +kernel)]
  exact hread

/-- Only the chunk that waits is replaced. -/
theorem runAt_inPlace_nested :
    (∃ i, Command.ofArguments [.ofString "--dir", .ofString "dist"] = .ok (.run i) ∧
        i.target = none ∧ i.report = none) ∧
      nestedChunks.WellFormed ∧
      (runAt [] [.ofString "--dir", .ofString "dist"] nestedChunks).1.exitCode = 0 ∧
      ∃ f, Overwrites [.ofString "dist"]
          [⟨"a.js", "(async () => \x7b\n\tawait 1;\n\x7d)();\n", true⟩] f ∧
        (runAt [] [.ofString "--dir", .ofString "dist"] nestedChunks).2 =
          nestedChunks.mapFiles f := by
  have hrun : Command.ofArguments [.ofString "--dir", .ofString "dist"] =
      .ok (.run { folder := .ofString "dist" }) := by decide +kernel
  have ht : nestedChunks.WellFormed := by decide +kernel
  have houtput : (transform (Invocation.settings { folder := .ofString "dist" })
      [⟨"a.js", "await 1;"⟩, ⟨"lib/b.mjs", "export let b = 1;"⟩]).toOption.map
        (fun output => output.chunks.filter (·.transformed)) =
      some [⟨"a.js", "(async () => \x7b\n\tawait 1;\n\x7d)();\n", true⟩] := by decide +kernel
  obtain ⟨output, houtput, htransformed⟩ := Option.map_eq_some_iff.mp houtput
  obtain ⟨-, -, -, -, -, -, hsucceeds⟩ := runAt_inPlace hrun rfl rfl ht []
  obtain ⟨-, hcode, place, f, hleads, -, hfiles, htree⟩ :=
    hsucceeds _ output chunksIn_nestedChunks (eq_ok_of_toOption houtput)
  obtain rfl : place = [.ofString "dist"] := hleads.unique rfl
  rw [htransformed] at hfiles
  -- the chunk that is written is a file
  have hf := hfiles fun c hc path => by
    obtain rfl := List.mem_singleton.mp hc
    exact nofun
  exact ⟨⟨_, hrun, rfl, rfl⟩, ht, hcode, f, hf, htree⟩

/-! ## Exceptions -/

/-- A chunk that waits, alone in a folder. -/
def chunkAlone : FileTree :=
  .folder [(.ofString "a.js", .file "await 0;".toUTF8)]

/-- A chunk whose name is no text. -/
def chunkUnnamed : FileTree :=
  .folder [(0xFF :: RawText.ofString ".js", .file "await 0;".toUTF8)]

/-- A chunk that is a link to a file outside of its folder. -/
def chunkLinked : FileTree :=
  .folder [
    (.ofString "dist", .folder [(.ofString "a.js", .link (.ofString "../b.js"))]),
    (.ofString "b.js", .file "await 0;".toUTF8)]

/-- Where a text is asked for, the command ends well and writes nothing, whatever waits. Where a
chunk has a name that is no text, reading does not end with exit code 1. Where a chunk is a link, a
file outside of the folder is replaced. -/
theorem runAt_inPlace_exceptions :
    (runAt [] [.ofString "--dir", .ofString ".", .ofString "--version"] chunkAlone =
        (.text versionText, chunkAlone) ∧
      (transform (Invocation.settings { folder := .ofString "." })
        [⟨"a.js", "await 0;"⟩]).toOption.map
        (fun output => output.chunks.map (·.transformed)) = some [true]) ∧
    (runAt [] [.ofString "--dir", .ofString "."] chunkUnnamed).1.exitCode = 101 ∧
    (runAt [] [.ofString "--dir", .ofString "dist"] chunkLinked).1.exitCode = 0 ∧
    (chunkLinked.read [] (.ofString "b.js")).toOption = some "await 0;".toUTF8 ∧
    ((runAt [] [.ofString "--dir", .ofString "dist"] chunkLinked).2.read []
      (.ofString "b.js")).toOption =
        some "(async () => \x7b\n\tawait 0;\n\x7d)();\n".toUTF8 := by
  have hversion : Command.ofArguments
      [.ofString "--dir", .ofString ".", .ofString "--version"] = .ok .showVersion := by
    decide +kernel
  refine ⟨⟨?_, ?_⟩, ?_, ?_, ?_, ?_⟩
  · rw [runAt, hversion]
  all_goals decide +kernel

end Awaitless.CommandLine
