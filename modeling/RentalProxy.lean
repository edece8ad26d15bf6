import RentalProxy.FoundRentals
import RentalProxy.RentalCaps
import RentalProxy.Sv2.NoiseKeys
import RentalProxy.ControlApi
import RentalProxy.Sv1.Headers
import RentalProxy.Sv2.Probing
import RentalProxy.Sv1.Hints
import RentalProxy.DroppedUpstreams
import RentalProxy.Marketplace
import RentalProxy.Overspend
import RentalProxy.OrderCharges
import RentalProxy.OrderIds
import RentalProxy.OrderRows
import RentalProxy.RentalBands
import RentalProxy.HashrateHistory
import RentalProxy.Sv2.Extranonce2
import RentalProxy.OrdersMigration
import RentalProxy.SellerRigs
import RentalProxy.Lib.Like
import RentalProxy.PoolUrl
import RentalProxy.RpcLines
import RentalProxy.Lib.Trim
import RentalProxy.Text
import RentalProxy.DifficultyTargets
import RentalProxy.Lib.ScaledDivision
import RentalProxy.Sv1.JobVersions
import RentalProxy.Lib.BoundedTable
import RentalProxy.Sv2.EmptyHull
import RentalProxy.Sv2.Reopening
import RentalProxy.Sv2.OpenReplies
import RentalProxy.Sv2.FrameRouting
import RentalProxy.VersionRolling
import RentalProxy.Sv2.ShareResults
import RentalProxy.Sv1.Redirects
import RentalProxy.IdleRounds
import RentalProxy.OneRig
import RentalProxy.FrozenRigs
import RentalProxy.OrderEnds
import RentalProxy.BufferedWork
import RentalProxy.OrderCalls
import RentalProxy.Lib.Calls
import RentalProxy.LiveOrders
import RentalProxy.Hashrate
import RentalProxy.Sv1.Difficulty
import RentalProxy.Sv1.Worker
import RentalProxy.Sv1.LineOrder
import RentalProxy.Sv2.Channels
import RentalProxy.Sv2.Groups
import RentalProxy.Sv2.Credits
import RentalProxy.AcceptRatio
import RentalProxy.LiveRouting
import RentalProxy.RentalChanges
import RentalProxy.Sv2.Isolation
import RentalProxy.Sv2.TranslateSends
import RentalProxy.Sv2.Detach
import RentalProxy.Sv2.FailedSwitch
import RentalProxy.Sv2.PrevHash
import RentalProxy.Sv1.Activation
import RentalProxy.Sv1.SubmitResults
import RentalProxy.RegisteredOnce
