import Vitess.Sqlparser.Grammar
import Vitess.Sqlparser.Ast
import Vitess.Evalengine.Hashcode
import Vitess.Evalengine.Arithmetic
import Vitess.Evalengine.Expr
import Vitess.Evalengine.Vm
import Vitess.Evalengine.Compiler
import Vitess.Evalengine.Refinement
import Vitess.Evalengine.Checked
import Vitess.Machine.ForwardJumps
import Vitess.Evalengine.Types
import Vitess.Go.Float64
import Vitess.Vindexes.Cfc
import Vitess.Crypto.Md5
import Vitess.Key.Destination
import Vitess.Key.ShardingSpec
import Vitess.Vindexes.Hash
import Vitess.Mysql.Fastparse
import Vitess.Mysql.Conn
import Vitess.Sqltypes.Value
import Vitess.Evalengine.Aggregation
import Vitess.Evalengine.Sorter
import Vitess.Engine.Routing
import Vitess.Engine.Limit
import Vitess.Engine.MergeSort
import Vitess.Key.Predicates
import Vitess.Replication.Mysql56GtidSet
import Vitess.Replication.Mysql56Union
import Vitess.Replication.Difference
import Vitess.Replication.Mysql56Text
import Vitess.Replication.MariadbGtid
import Vitess.Replication.Position
import Vitess.Vtctl.Reparentutil
import Vitess.Vdiff.TableDiffer
import Vitess.Vdiff.Counts
import Vitess.Mysql.Handshake
import Vitess.Mysql.DecimalFormat
import Vitess.Datetime.Parse
import Vitess.Datetime.Interval
import Vitess.Datetime.Weight
import Vitess.Mathutil.EquivalenceRelation
import Vitess.Data.ByteSet
import Vitess.Semantics.Bitset
import Vitess.Mysql.DecimalRounding
import Vitess.Mysql.DecimalWeight
import Vitess.Mysql.DecimalScan
import Vitess.Replication.Mysql56Compare
import Vitess.Replication.GtidOrder
import Vitess.Replication.Applied
import Vitess.Mysql.DecimalArithmetic
import Vitess.Key.EvenShards
import Vitess.Data.Radix
import Vitess.Cache.Sketch
import Vitess.Go.Float32
import Vitess.Cache.Policy
import Vitess.Cache.Segments
import Vitess.Cache.Maintenance
