import Gitwork.Revision

/-! # What plain revisions lead to

    A plain name names what its reference resolves to, and a commit leads to
    its tree. -/

namespace Gitwork

/-- A plain name names the object that its reference resolves to. -/
theorem revision_of_name {r : Repo} {name place : String} {id : Oid} {o : Object}
    (hid : Oid.ofHex? name = none) (hname : name ≠ "") (hparse : Revision.parse name = ⟨name, []⟩)
    (hexpand : r.expandName name = .ok (place, id)) (hfind : r.objects.find id = .ok o) :
    r.revision name = .ok ⟨id, some place⟩ := by
  have hbase : r.baseObject name = .ok ⟨id, some place⟩ := by
    simp only [Repo.baseObject, hid, hexpand, Option.bind_none, hfind]
    rfl
  simp only [Repo.revision, hparse, if_neg hname, hbase, List.foldl_nil]
  show (r.objects.find id >>= fun _ => _) = _
  rw [hfind]
  rfl

/-- A commit leads to the files of its tree. -/
theorem ObjectStore.treeOf_commit {objects : ObjectStore} {id : Oid} {c : Commit}
    (hcommit : objects.find id = .ok (.commit c))
    (htree : objects.find (Object.treeId c.tree) = .ok (.tree c.tree)) :
    objects.treeOf id = .ok c.tree := by
  have hpeel : objects.peel .tree id = .ok (Object.treeId c.tree) := by
    rw [peel, hcommit]
    show (objects.peelFrom .tree 1 id).mapError _ = _
    rw [peelFrom, hcommit]
    rfl
  rw [treeOf, hpeel]
  show (objects.find (Object.treeId c.tree) >>= fun _ => _) = _
  rw [htree]
  rfl

/-- A revision leads to the files that its object leads to. -/
theorem treeOf_revision {r : Repo} {rev : String} {d : Designated} {files : Files}
    (hrev : r.revision rev = .ok d) (htree : r.objects.treeOf d.id = .ok files) :
    (r.revision rev >>= fun d => r.objects.treeOf d.id) = .ok files := by
  rw [hrev]
  exact htree

end Gitwork
